-- SUMMARY: When merging problems by path text merges exactly the problems at one path.
import SchemaAlgebra.Proofs.Collections
import SchemaAlgebra.Proofs.Explanation

/-!
# Merging

Problems are merged by the text of their path, and texts are coarser than paths:
a key may hold a point, be empty, or read like a symbol. Where the keys can be
told apart by their texts a path can be read off its text, and then a collection
has one entry for each path. The paths that a node reports hold its own keys
only, so this is a condition on the node.
-/

namespace SchemaAlgebra

-- ---------------------------------------------------------------------------
-- Texts and paths
-- ---------------------------------------------------------------------------

/-- Keys that can be told apart by their texts, also when these are joined with points. -/
structure PropKey.ToldApart (keys : PropKey → Prop) : Prop where
  ne_empty : ∀ key, keys key → key.text ≠ ""
  no_point : ∀ key, keys key → '.' ∉ key.text.toList
  text_inj : ∀ key key', keys key → keys key' → key.text = key'.text → key = key'

theorem toList_pathText (path : List PropKey) :
    (pathText path).toList = ['.'].intercalate (path.map (·.text.toList)) := by
  rw [pathText, String.toList_intercalate, List.map_map]
  rfl

theorem pathText_ne_empty {key : PropKey} (hkey : key.text ≠ "") (rest : List PropKey) :
    pathText (key :: rest) ≠ "" := by
  intro hempty
  cases rest with
  | nil =>
      rw [pathText, List.map_singleton, String.intercalate_singleton] at hempty
      exact hkey hempty
  | cons next rest =>
      have hlength := congrArg String.toList hempty
      rw [pathText, List.map_cons, List.map_cons, String.intercalate_cons_cons] at hlength
      simp at hlength

namespace PropKey.ToldApart

variable {keys : PropKey → Prop} (h : ToldApart keys)

include h

theorem map_text_inj {path path' : List PropKey} (hpath : ∀ key ∈ path, keys key) (hpath' : ∀ key ∈ path', keys key)
    (heq : path.map (·.text.toList) = path'.map (·.text.toList)) : path = path' := by
  induction path generalizing path' with
  | nil => exact (List.map_eq_nil_iff.mp heq.symm).symm
  | cons key rest ih =>
      cases path' with
      | nil => cases heq
      | cons key' rest' =>
          obtain ⟨hkey, hrest⟩ := List.forall_mem_cons.mp hpath
          obtain ⟨hkey', hrest'⟩ := List.forall_mem_cons.mp hpath'
          rw [List.map_cons, List.map_cons, List.cons.injEq] at heq
          rw [h.text_inj key key' hkey hkey' (String.toList_inj.mp heq.1), ih hrest hrest' heq.2]

/-- A path can be read off its text: no key holds a point, so splitting at the points gives the keys back, and no key
is empty, so only the empty path has the empty text. -/
theorem pathText_inj {path path' : List PropKey} (hpath : ∀ key ∈ path, keys key) (hpath' : ∀ key ∈ path', keys key)
    (heq : pathText path = pathText path') : path = path' := by
  have hsplit {path : List PropKey} (hkeys : ∀ key ∈ path, keys key) (hne : path ≠ []) :
      (pathText path).toList.splitOn '.' = path.map (·.text.toList) := by
    rw [toList_pathText]
    refine List.splitOn_intercalate '.' (fun text htext => ?_) (by simpa using hne)
    obtain ⟨key, hkey, rfl⟩ := List.mem_map.mp htext
    exact h.no_point key (hkeys key hkey)
  cases path with
  | nil =>
      cases path' with
      | nil => rfl
      | cons key rest => exact absurd heq.symm (pathText_ne_empty (h.ne_empty key (hpath' key List.mem_cons_self)) rest)
  | cons key rest =>
      cases path' with
      | nil => exact absurd heq (pathText_ne_empty (h.ne_empty key (hpath key List.mem_cons_self)) rest)
      | cons key' rest' =>
          apply h.map_text_inj hpath hpath'
          rw [← hsplit hpath (List.cons_ne_nil _ _), ← hsplit hpath' (List.cons_ne_nil _ _), heq]

end PropKey.ToldApart

namespace Problems

open Problem

/-- There is one entry for each path at which there are problems, in the order of first appearance, and it is what the
problems at this path are when joined: two problems share an entry exactly if they are at the same path. -/
def MergedByPath (merged : Problems) (problems : List Problem) : Prop :=
  merged.list = (problems.map path).eraseDups.filterMap fun path => joined (problems.filter (·.path = path))

theorem ofList_by_path {problems : List Problem} {keys : PropKey → Prop} (hkeys : PropKey.ToldApart keys)
    (hpaths : ∀ problem ∈ problems, ∀ key ∈ problem.path, keys key) : (ofList problems).MergedByPath problems := by
  have hinj : ∀ p ∈ problems.map path, ∀ q ∈ problems.map path, pathText p = pathText q → p = q := by
    intro p hp q hq
    obtain ⟨problem, hproblem, rfl⟩ := List.mem_map.mp hp
    obtain ⟨problem', hproblem', rfl⟩ := List.mem_map.mp hq
    exact hkeys.pathText_inj (hpaths problem hproblem) (hpaths problem' hproblem')
  have htexts : problems.map location = (problems.map path).map pathText := List.map_map.symm
  rw [MergedByPath, list_ofList, htexts, eraseDups_map hinj, List.filterMap_map]
  refine List.filterMap_congr fun p hp => ?_
  apply congrArg joined
  refine List.filter_congr fun problem hproblem => ?_
  have hsame : problem.location = pathText p ↔ problem.path = p :=
    ⟨hinj _ (List.mem_map_of_mem hproblem) p (List.mem_eraseDups.mp hp), congrArg pathText⟩
  exact decide_eq_decide.mpr hsame

/-- The path of the keys `a` and `b` reads like that of the one key `a.b`: problems at the two share an entry. -/
theorem dotted_key_merges :
    let below : Problem := .mk [.string "a", .string "b"] (.unsatisfied "a string") .null
    let beside : Problem := .mk [.string "a.b"] (.unsatisfied "a number") .undefined
    ¬ (ofList [below, beside]).MergedByPath [below, beside] := by
  intro below beside hmerged
  have hlength : (ofList [below, beside]).list.length = 2 := by
    rw [hmerged]
    decide
  revert hlength
  decide

/-- Every entry is at the path of some problem. -/
theorem exists_path_of_mem_ofList {problems : List Problem} {entry : Problem} (h : entry ∈ (ofList problems).list) :
    ∃ problem ∈ problems, problem.path = entry.path := by
  rw [list_ofList, List.mem_filterMap] at h
  obtain ⟨s, -, hentry⟩ := h
  have hpath := path_joined (problems.filter (·.location = s))
  rw [hentry] at hpath
  obtain ⟨problem, hhead, heq⟩ := Option.map_eq_some_iff.mp hpath.symm
  exact ⟨problem, List.mem_of_mem_filter (List.mem_of_mem_head? hhead), heq⟩

end Problems

-- ---------------------------------------------------------------------------
-- What a traversal reports
-- ---------------------------------------------------------------------------

/-- Every problem of the finding is one of `Q`. -/
def Finding.Reports (finding : Finding) (Q : Problem → Prop) : Prop := ∀ problem ∈ finding.problems, Q problem

namespace Finding.Reports

variable {Q Q' : Problem → Prop} {finding : Finding}

theorem imp (h : finding.Reports Q) (hQ : ∀ problem, Q problem → Q' problem) : finding.Reports Q' :=
  fun problem hproblem => hQ problem (h problem hproblem)

theorem of_isSound (h : finding.isSound = true) : finding.Reports Q := by
  rw [Reports, List.isEmpty_iff.mp h]
  exact List.forall_mem_nil Q

theorem report {scene : Scene} {code : ProblemCode Problem} {v : Value} (h : Q (.mk scene.path code v)) (serial : Nat) :
    (scene.report code v serial).Reports Q :=
  List.forall_mem_singleton.mpr h

theorem andThen {next : Value → Nat → Finding} (hfirst : finding.Reports Q)
    (hnext : ∀ serial, (next finding.value serial).Reports Q) : (finding.andThen next).Reports Q := by
  unfold Finding.andThen
  split
  · exact hnext _
  · exact hfirst

theorem backInto (h : finding.Reports Q) (whole : Value) (key : PropKey) (replace : Bool) :
    (finding.backInto whole key replace).Reports Q := by
  unfold Finding.backInto
  split
  · split <;> exact h
  · exact h

end Finding.Reports

variable [Behaviour]

namespace Node

variable {Q : Problem → Prop}

/-- A union reports problems of `Q` if its branches do, as far as `Q` is kept by collecting problems and by making one
problem of what several branches found. -/
theorem tryBranches_reports (inner : Scene)
    (hmerge : ∀ problems : List Problem, (∀ p ∈ problems, Q p) → ∀ entry ∈ (Problems.ofList problems).list, Q entry)
    {outer : Scene} {description : String} {v : Value}
    (hreject : Q (.mk outer.path (.unsatisfied description) v))
    (hunion : ∀ failures : List Problems, (∀ f ∈ failures, ∀ entry ∈ f.list, Q entry) →
      Q (.mk outer.path (.union description failures) v))
    {branches : List Node} (h : ∀ b ∈ branches, ∀ serial, (b.traverse inner v serial).Reports Q)
    {eligible : Nat → Bool} (place : Nat) {failures : List Problems}
    (hfailures : ∀ f ∈ failures, ∀ entry ∈ f.list, Q entry) (serial : Nat) :
    ((tryBranches eligible place failures branches inner v serial).conclude outer description v).Reports Q := by
  induction branches generalizing place failures serial with
  | nil =>
      rw [tryBranches]
      have hfailed : ∀ f ∈ failures.reverse, ∀ entry ∈ f.list, Q entry :=
        fun f hf => hfailures f (List.mem_reverse.mp hf)
      cases hreverse : failures.reverse with
      | nil => exact .report hreject serial
      | cons failure rest =>
          rw [hreverse] at hfailed
          cases rest with
          | nil => exact hfailed failure List.mem_cons_self
          | cons other rest => exact .report (hunion _ hfailed) serial
  | cons branch rest ih =>
      obtain ⟨hbranch, hrest⟩ := List.forall_mem_cons.mp h
      unfold tryBranches
      split
      · dsimp only
        split
        · exact hbranch serial
        · exact ih hrest _ (List.forall_mem_cons.mpr ⟨hmerge _ (hbranch serial), hfailures⟩) _
      · exact ih hrest _ hfailures _

/-- All rules together report problems of `Q` if each does, on every value that the rules before it may leave. -/
theorem traverseAll_reports {rules : List Node} {path : List PropKey} {V : Value → Prop}
    (h : ∀ r ∈ rules, ∀ scene : Scene, scene.path = path → ∀ v serial, V v →
      (r.traverse scene v serial).Reports Q ∧ V (r.traverse scene v serial).value)
    {scene : Scene} (hscene : scene.path = path) {v : Value} (hv : V v) (serial : Nat) :
    (traverseAll rules scene v serial).Reports Q := by
  induction rules generalizing scene v serial with
  | nil => exact .of_isSound rfl
  | cons rule rest ih =>
      obtain ⟨hrule, hrest⟩ := List.forall_mem_cons.mp h
      obtain ⟨hfirst, hvalue⟩ := hrule scene hscene v serial hv
      have hafter : (scene.after (rule.traverse scene v serial).problems).path = path := hscene
      exact List.forall_mem_append.mpr ⟨hfirst, ih hrest hafter hvalue _⟩

end Node

-- ---------------------------------------------------------------------------
-- Keys of a node
-- ---------------------------------------------------------------------------

namespace Node

omit [Behaviour]

/-- A key of some property in the node. -/
def HasKey (node : Node) (key : PropKey) : Prop :=
  ∃ found, node.Reaches found ∧ ∃ value, found.content = .required key value ∨ found.content = .optional key value

theorem HasKey.of_child {node child : Node} {key : PropKey} (hchild : child ∈ node.children) (h : child.HasKey key) :
    node.HasKey key := by
  obtain ⟨found, hfound, hkey⟩ := h
  exact ⟨found, .child hchild hfound, hkey⟩

/-- The keys of a node are its own and those of what it holds. -/
theorem hasKey_iff {node : Node} {key : PropKey} : node.HasKey key ↔
    (∃ value, node.content = .required key value ∨ node.content = .optional key value) ∨
      ∃ c ∈ node.children, c.HasKey key := by
  constructor
  · rintro ⟨found, hfound, hkey⟩
    cases hfound with
    | refl => exact .inl hkey
    | child hchild hfound => exact .inr ⟨_, hchild, found, hfound, hkey⟩
  · rintro (hkey | ⟨c, hchild, hkey⟩)
    · exact ⟨node, .refl node, hkey⟩
    · exact hkey.of_child hchild

/-- The problem is below a path, at keys of the node. -/
def Covers (node : Node) (path : List PropKey) (problem : Problem) : Prop :=
  ∀ key ∈ problem.path, key ∈ path ∨ node.HasKey key

variable {node child : Node} {path : List PropKey} {problem : Problem}

theorem Covers.of_child (hchild : child ∈ node.children) (h : child.Covers path problem) : node.Covers path problem :=
  fun key hkey => (h key hkey).imp_right (.of_child hchild)

/-- What is below a key of the node is below the path that leads to it. -/
theorem Covers.leave {key : PropKey} (hkey : node.HasKey key) (h : node.Covers (path ++ [key]) problem) :
    node.Covers path problem := by
  intro key' hkey'
  rcases h key' hkey' with hpath | hnode
  · rcases List.mem_append.mp hpath with hpath | hlast
    · exact .inl hpath
    · exact .inr (List.mem_singleton.mp hlast ▸ hkey)
  · exact .inr hnode

theorem Covers.merge {problems : List Problem} (h : ∀ p ∈ problems, node.Covers path p) :
    ∀ entry ∈ (Problems.ofList problems).list, node.Covers path entry := by
  intro entry hentry
  obtain ⟨problem, hproblem, hpath⟩ := Problems.exists_path_of_mem_ofList hentry
  intro key hkey
  exact h problem hproblem key (hpath ▸ hkey)

end Node

theorem Transform.traverseAll_reports {node : Node} (transforms : List Transform) (scene : Scene) (v : Value)
    (serial : Nat) : (Transform.traverseAll scene transforms v serial).Reports (node.Covers scene.path) := by
  induction transforms generalizing v serial with
  | nil => exact .of_isSound rfl
  | cons transform rest ih =>
      refine .andThen (fun problem hproblem key hkey => ?_) fun serial => ih _ serial
      obtain ⟨⟨code, data⟩, -, rfl⟩ := List.mem_map.mp hproblem
      exact .inl hkey

namespace Node

/-- Transforms report at the place of their value, and a property adds its key to the path before it goes on. -/
theorem content_reports_own_keys {content : Content Node} (caption : Caption) (profile : Profile)
    (h : ∀ c ∈ content.children, ∀ scene v serial, (c.traverse scene v serial).Reports (c.Covers scene.path))
    (scene : Scene) (v : Value) (serial : Nat) :
    (Content.traverse profile content scene v serial).Reports ((mk content caption profile).Covers scene.path) := by
  let node := mk content caption profile
  have hchild {c : Node} (hc : c ∈ content.children) (scene : Scene) (v : Value) (serial : Nat) :
      (c.traverse scene v serial).Reports (node.Covers scene.path) :=
    (h c hc scene v serial).imp fun _ => Covers.of_child hc
  have hhere {code : ProblemCode Problem} : node.Covers scene.path (.mk scene.path code v) := fun key hkey => .inl hkey
  cases content with
  | union branches ordered =>
      exact tryBranches_reports scene.apart (fun _ => Covers.merge) hhere (fun _ _ => hhere)
        (fun b hb => hchild hb scene.apart v) 0 (List.forall_mem_nil _) serial
  | morph input output transforms =>
      obtain ⟨hinput, houtput⟩ := List.forall_mem_cons.mp @hchild
      refine .andThen (.andThen (hinput scene v serial) fun serial => ?_) fun serial => ?_
      · exact Transform.traverseAll_reports transforms scene _ serial
      · cases output with
        | none => exact .of_isSound rfl
        | some output => exact houtput output List.mem_cons_self scene _ serial
  | intersection basis constraints =>
      obtain ⟨hbasis, hconstraints⟩ := List.forall_mem_append.mp @hchild
      refine .andThen ?_ fun serial => traverseAll_reports (V := fun _ => True) ?_ rfl trivial serial
      · cases basis with
        | none => exact .of_isSound rfl
        | some basis => exact hbasis basis List.mem_cons_self scene v serial
      · exact fun r hr scene' hscene v serial _ => ⟨hscene ▸ hconstraints r hr scene' v serial, trivial⟩
  | required key value =>
      have hkey : node.HasKey key := ⟨node, .refl node, value, .inl rfl⟩
      rw [Content.traverse]
      cases v.get? key with
      | none =>
          refine List.forall_mem_singleton.mpr fun key' hkey' => ?_
          rcases List.mem_append.mp hkey' with hpath | hlast
          · exact .inl hpath
          · obtain rfl := List.mem_singleton.mp hlast
            exact .inr hkey
      | some x =>
          refine .backInto ?_ v key _
          exact (hchild List.mem_cons_self (scene.enter key) x serial).imp fun _ => .leave hkey
  | optional key value =>
      have hkey : node.HasKey key := ⟨node, .refl node, value, .inr rfl⟩
      rw [Content.traverse]
      cases v.get? key with
      | none => exact .of_isSound rfl
      | some x =>
          refine .backInto ?_ v key _
          exact (hchild List.mem_cons_self (scene.enter key) x serial).imp fun _ => .leave hkey
  | _ =>
      unfold Content.traverse
      split
      · exact .of_isSound rfl
      · exact .report hhere serial

/-- Whatever a node reports is at its own keys. -/
theorem reports_own_keys (node : Node) (scene : Scene) (v : Value) (serial : Nat) :
    (node.traverse scene v serial).Reports (node.Covers scene.path) := by
  induction node using induct generalizing scene v serial with
  | step content caption profile ih =>
      rw [traverse]
      split
      · exact .of_isSound rfl
      · exact content_reports_own_keys caption profile ih scene v serial

/-- Merging by path text is merging by path, for any problems and for the problems of any validation, as far as the
keys in question can be told apart by their texts. -/
theorem apply_merges_by_path :
    (∀ (keys : PropKey → Prop) (problems : List Problem), PropKey.ToldApart keys →
      (∀ problem ∈ problems, ∀ key ∈ problem.path, keys key) → (Problems.ofList problems).MergedByPath problems) ∧
    ∀ (node : Node) (v : Value) (serial : Nat) (merged : Problems), PropKey.ToldApart node.HasKey →
      (node.apply v serial).1 = .error merged → merged.MergedByPath (node.traverse .start v serial).problems := by
  refine ⟨fun keys problems hkeys => Problems.ofList_by_path hkeys, fun node v serial merged hkeys h => ?_⟩
  unfold apply at h
  dsimp only at h
  split at h
  · cases h
  · injection h with hmerged
    rw [← hmerged]
    refine Problems.ofList_by_path hkeys fun problem hproblem key hkey => ?_
    exact (reports_own_keys node .start v serial problem hproblem key hkey).resolve_left List.not_mem_nil

omit [Behaviour] in
/-- Three problems at two paths, and a node with one property. -/
theorem property_merges_by_path : ∃ (node : Node) (v : Value) (merged : Problems),
    let _ := Stock.behaviour
    let problem (name : String) : Problem := .mk [.string name] (.unsatisfied "a string") v
    (Problems.ofList [problem "a", problem "b", problem "a"]).MergedByPath [problem "a", problem "b", problem "a"] ∧
      (node.apply v 0).1 = .error merged ∧ merged.MergedByPath (node.traverse .start v 0).problems := by
  let _ := Stock.behaviour
  let text := ((Space.new 0 .standard).intern (.domain .string) .none).1
  let node := ((Space.new 0 .standard).intern (.required (.string "a") text) .none).1
  let v : Value := .object ⟨0, some .object, .plain, [(.string "a", .null)]⟩
  have hkeys : PropKey.ToldApart fun key => key = .string "a" ∨ key = .string "b" := by
    refine ⟨?_, ?_, ?_⟩
    · rintro key (rfl | rfl) <;> decide
    · rintro key (rfl | rfl) <;> decide
    · rintro key key' (rfl | rfl) (rfl | rfl) <;> decide
  have hnode : PropKey.ToldApart node.HasKey := by
    have hown (key : PropKey) (h : node.HasKey key) : key = .string "a" ∨ key = .string "b" := by
      rcases hasKey_iff.mp h with ⟨value, hkey | hkey⟩ | ⟨c, hc, hkey⟩
      · cases hkey
        exact .inl rfl
      · cases hkey
      · rcases hasKey_iff.mp (List.mem_singleton.mp hc ▸ hkey) with ⟨value, hkey | hkey⟩ | ⟨c, hc, hkey⟩
        · cases hkey
        · cases hkey
        · cases hc
    exact ⟨fun key h => hkeys.ne_empty key (hown key h), fun key h => hkeys.no_point key (hown key h),
      fun key key' h h' => hkeys.text_inj key key' (hown key h) (hown key' h')⟩
  have hfails : (node.apply v 0).1.isOk = false := by decide +kernel
  cases happly : (node.apply v 0).1 with
  | ok result =>
      rw [happly] at hfails
      cases hfails
  | error merged =>
      refine ⟨node, v, merged, apply_merges_by_path.1 _ _ hkeys ?_, happly, apply_merges_by_path.2 node v 0 merged hnode happly⟩
      simp [Problem.path]

end Node

end SchemaAlgebra
