-- SUMMARY: Every problem found without transforms points at a part of the value that a node refuses.
import SchemaAlgebra.Proofs.Merging

/-!
# Evidence

The problems of a traversal are made at the leaves of a node, filed in the
collections of union branches, joined there, and spliced or wrapped into what the
union reports. None of this moves a problem: it stays at the path that leads from
the value to the part it is about.
-/

namespace SchemaAlgebra

-- ---------------------------------------------------------------------------
-- Taking problems apart
-- ---------------------------------------------------------------------------

namespace Problem

mutual

/-- The problems that a problem consists of: merged ones are taken apart, and a problem with a union goes before
what its branches found. -/
def parts : Problem → List Problem
  | .mk _ (.intersection problems) _ => partsOf problems
  | .mk path (.union expected branches) data => .mk path (.union expected branches) data :: partsOfBranches branches
  | problem => [problem]
termination_by structural problem => problem

def partsOf : List Problem → List Problem
  | [] => []
  | problem :: rest => parts problem ++ partsOf rest
termination_by structural problems => problems

def partsOfBranch : Collection Problem → List Problem
  | ⟨problems, _⟩ => partsOf problems
termination_by structural problems => problems

def partsOfBranches : List (Collection Problem) → List Problem
  | [] => []
  | branch :: rest => partsOfBranch branch ++ partsOfBranches rest
termination_by structural branches => branches

end

@[simp]
theorem partsOf_eq (problems : List Problem) : partsOf problems = problems.flatMap parts := by
  induction problems with
  | nil => rfl
  | cons problem rest ih => rw [partsOf, ih, List.flatMap_cons]

end Problem

/-- The problems that a collection consists of. -/
def Problems.parts (problems : Problems) : List Problem := problems.list.flatMap Problem.parts

namespace Problem

@[simp]
theorem partsOfBranches_eq (branches : List Problems) : partsOfBranches branches = branches.flatMap Problems.parts := by
  induction branches with
  | nil => rfl
  | cons branch rest ih => rw [partsOfBranches, ih, List.flatMap_cons, partsOfBranch, partsOf_eq, Problems.parts]

@[simp]
theorem parts_join (earlier later : Problem) : (earlier.join later).parts = earlier.parts ++ later.parts := by
  obtain ⟨path, code, data⟩ := earlier
  cases code <;> simp [join, code, parts, Problem.path, Problem.data]

end Problem

namespace Problems

theorem mem_parts_add {problems : Problems} {problem part : Problem} :
    part ∈ (problems.add problem).parts ↔ part ∈ problems.parts ∨ part ∈ problem.parts := by
  obtain ⟨list, count⟩ := problems
  unfold parts add
  induction list with
  | nil => simp [file]
  | cons entry rest ih =>
      simp only [List.flatMap_cons, List.mem_append] at ih ⊢
      unfold file
      split
      · simp only [List.flatMap_cons, List.mem_append, Problem.parts_join]
        tauto
      · rw [List.flatMap_cons, List.mem_append, ih, or_assoc]

/-- Collecting problems takes none of them apart and adds none. -/
theorem mem_parts_ofList {problems : List Problem} {part : Problem} :
    part ∈ (ofList problems).parts ↔ ∃ problem ∈ problems, part ∈ problem.parts := by
  induction problems using List.reverseRecOn with
  | nil => simp [ofList, empty, parts]
  | append_singleton problems problem ih =>
      rw [ofList_concat, mem_parts_add, ih]
      simp [or_and_right, exists_or]

end Problems

-- ---------------------------------------------------------------------------
-- Evidence
-- ---------------------------------------------------------------------------

variable [Behaviour]

/-- A problem that a node may find with a value at a path: its own path leads from there to a part of the value, which
some node in the node refuses and describes in the words of the problem, or which lacks the last key of the path. -/
inductive Problem.Evident (node : Node) (path : List PropKey) (v : Value) : Problem → Prop where
  | missing {place rest : List PropKey} {key : PropKey} {data : Value} (hplace : place = path ++ rest ++ [key])
      (hreach : Discriminant.follow? rest v = some data) (habsent : data.get? key = none) :
      Evident node path v (.mk place (.missing key) data)
  | unsatisfied {place rest : List PropKey} {found : Node} {data : Value} (hplace : place = path ++ rest)
      (hreach : Discriminant.follow? rest v = some data) (hfound : node.Reaches found)
      (hrefuses : found.allows data = false) :
      Evident node path v (.mk place (.unsatisfied found.description) data)
  | union {place rest : List PropKey} {found : Node} {data : Value} {branches : List Problems}
      (hplace : place = path ++ rest) (hreach : Discriminant.follow? rest v = some data) (hfound : node.Reaches found)
      (hrefuses : found.allows data = false) :
      Evident node path v (.mk place (.union found.description branches) data)

namespace Problem.Evident

variable {node child : Node} {path : List PropKey} {key : PropKey} {v x : Value} {problem : Problem}

theorem of_child (hchild : child ∈ node.children) (h : problem.Evident child path v) :
    problem.Evident node path v := by
  cases h with
  | missing hplace hreach habsent => exact .missing hplace hreach habsent
  | unsatisfied hplace hreach hfound hrefuses => exact .unsatisfied hplace hreach (.child hchild hfound) hrefuses
  | union hplace hreach hfound hrefuses => exact .union hplace hreach (.child hchild hfound) hrefuses

/-- What is evident below a key is evident at the object that has the key. -/
theorem enter (hget : v.get? key = some x) (h : problem.Evident node (path ++ [key]) x) :
    problem.Evident node path v := by
  have hfollow {rest : List PropKey} {data : Value} (hreach : Discriminant.follow? rest x = some data) :
      Discriminant.follow? (key :: rest) v = some data := by
    rw [Discriminant.follow?, hget, Option.bind_some, hreach]
  cases h with
  | missing hplace hreach habsent => exact .missing (by simp [hplace]) (hfollow hreach) habsent
  | unsatisfied hplace hreach hfound hrefuses => exact .unsatisfied (by simp [hplace]) (hfollow hreach) hfound hrefuses
  | union hplace hreach hfound hrefuses => exact .union (by simp [hplace]) (hfollow hreach) hfound hrefuses

end Problem.Evident

/-- Everything that a problem consists of is evident. -/
def Problem.Founded (node : Node) (path : List PropKey) (v : Value) (problem : Problem) : Prop :=
  ∀ part ∈ problem.parts, part.Evident node path v

namespace Problem.Founded

variable {node child : Node} {path : List PropKey} {v : Value} {problem : Problem}

theorem of_child (hchild : child ∈ node.children) (h : problem.Founded child path v) : problem.Founded node path v :=
  fun part hpart => (h part hpart).of_child hchild

theorem enter {key : PropKey} {x : Value} (hget : v.get? key = some x) (h : problem.Founded node (path ++ [key]) x) :
    problem.Founded node path v :=
  fun part hpart => (h part hpart).enter hget

/-- Joining problems keeps what they consist of. -/
theorem merge {problems : List Problem} (h : ∀ p ∈ problems, p.Founded node path v) :
    ∀ entry ∈ (Problems.ofList problems).list, entry.Founded node path v := by
  intro entry hentry part hpart
  have hparts : part ∈ (Problems.ofList problems).parts := List.mem_flatMap.mpr ⟨entry, hentry, hpart⟩
  obtain ⟨problem, hproblem, hpart⟩ := Problems.mem_parts_ofList.mp hparts
  exact h problem hproblem part hpart

/-- A value that a node refuses may be reported in its words, -/
theorem unsatisfied (hrefuses : node.allows v = false) :
    (Problem.mk path (.unsatisfied node.description) v).Founded node path v := by
  intro part hpart
  cases List.mem_singleton.mp hpart
  exact .unsatisfied (List.append_nil path).symm rfl (.refl node) hrefuses

/-- also together with what its branches found. -/
theorem union (hrefuses : node.allows v = false) {failures : List Problems}
    (h : ∀ f ∈ failures, ∀ entry ∈ f.list, entry.Founded node path v) :
    (Problem.mk path (.union node.description failures) v).Founded node path v := by
  intro part hpart
  rw [parts, partsOfBranches_eq] at hpart
  rcases List.mem_cons.mp hpart with rfl | hpart
  · exact .union (List.append_nil path).symm rfl (.refl node) hrefuses
  · obtain ⟨failure, hfailure, hpart⟩ := List.mem_flatMap.mp hpart
    obtain ⟨entry, hentry, hpart⟩ := List.mem_flatMap.mp hpart
    exact h failure hfailure entry hentry part hpart

theorem missing {key : PropKey} (habsent : v.get? key = none) :
    (Problem.mk (path ++ [key]) (.missing key) v).Founded node path v := by
  intro part hpart
  cases List.mem_singleton.mp hpart
  exact .missing (congrArg (· ++ [key]) (List.append_nil path).symm) rfl habsent

end Problem.Founded

-- ---------------------------------------------------------------------------
-- Traversals
-- ---------------------------------------------------------------------------

namespace Node

/-- Whatever the node reports is founded. -/
def Accountable (node : Node) : Prop :=
  ∀ scene v serial, (node.traverse scene v serial).Reports (Problem.Founded node scene.path v)

variable {scene : Scene} {v : Value}

/-- One step into a node: what it reports itself is founded because it refuses the value, and everything else comes from
a node in it, at its own path or at that of a property. -/
theorem content_accountable (content : Content Node) (caption : Caption) (profile : Profile)
    (hexplained : ∀ c ∈ content.children, c.Explained) (h : ∀ c ∈ content.children, c.Accountable)
    (hmorph : content.kind ≠ .morph) (hrefuses : (mk content caption profile).allows v = false) (serial : Nat) :
    (Content.traverse profile content scene v serial).Reports
      (Problem.Founded (mk content caption profile) scene.path v) := by
  let node := mk content caption profile
  have hchild {c : Node} (hc : c ∈ content.children) (scene : Scene) (x : Value) (serial : Nat) :
      (c.traverse scene x serial).Reports (Problem.Founded node scene.path x) :=
    (h c hc scene x serial).imp fun _ => Problem.Founded.of_child hc
  cases content with
  | union branches ordered =>
      exact tryBranches_reports scene.apart (fun _ => .merge) (.unsatisfied hrefuses)
        (fun _ => .union hrefuses) (fun b hb => hchild hb scene.apart v) 0 (List.forall_mem_nil _) serial
  | morph input output transforms => exact absurd rfl hmorph
  | intersection basis constraints =>
      obtain ⟨hbasis, hconstraints⟩ := List.forall_mem_append.mp @hchild
      have hvalue {c : Node} (hc : c ∈ (Content.intersection basis constraints).children) (scene : Scene)
          (serial : Nat) : (c.traverse scene v serial).value = v := (hexplained c hc scene v serial).value
      have hrules (serial : Nat) :
          (traverseAll constraints scene v serial).Reports (Problem.Founded node scene.path v) := by
        refine traverseAll_reports (V := (· = v)) (fun c hc scene' hscene x serial hx => ?_) rfl rfl serial
        rw [hx]
        exact ⟨hscene ▸ hconstraints c hc scene' v serial, hvalue (List.mem_append_right _ hc) scene' serial⟩
      cases basis with
      | none => exact hrules serial
      | some basis =>
          refine .andThen (hbasis basis List.mem_cons_self scene v serial) fun serial' => ?_
          rw [traverseOption, hvalue List.mem_cons_self scene serial]
          exact hrules serial'
  | required key value =>
      rw [Content.traverse]
      cases hget : v.get? key with
      | none => exact List.forall_mem_singleton.mpr (.missing hget)
      | some x =>
          refine .backInto ?_ v key _
          exact (hchild List.mem_cons_self (scene.enter key) x serial).imp fun _ => .enter hget
  | optional key value =>
      rw [Content.traverse]
      cases hget : v.get? key with
      | none => exact .of_isSound rfl
      | some x =>
          refine .backInto ?_ v key _
          exact (hchild List.mem_cons_self (scene.enter key) x serial).imp fun _ => .enter hget
  | _ =>
      unfold Content.traverse
      split
      · exact .of_isSound rfl
      · exact .report (.unsatisfied hrefuses) serial

theorem accountable {registry : Registry} {node : Node} (hwritten : node.Everywhere (Written registry))
    (h : node.Everywhere fun n => n.kind ≠ .morph) : node.Accountable := by
  induction node using induct with
  | step content caption profile ih =>
      intro scene v serial
      cases hallows : (mk content caption profile).allows v with
      | true => exact .of_isSound ((explained hwritten h scene v serial).isSound.trans hallows)
      | false =>
          rw [traverse]
          split
          · exact .of_isSound rfl
          · exact content_accountable content caption profile (fun c hc => explained (hwritten.child hc) (h.child hc))
              (fun c hc => ih c hc (hwritten.child hc) (h.child hc)) h.self hallows serial

/-- Where no morph is reachable, every problem points at real evidence, also inside merged problems and in the branches
of a union: following its path leads to its value, which a node described in its words refuses; and a problem with a
missing key leads to the value that lacks the key. -/
theorem apply_evident {adopting : Prop} {space : Space} (hreachable : space.Reachable adopting) {node : Node}
    (hnode : space.Holds node) (hmorph : node.Everywhere fun n => n.kind ≠ .morph) {v : Value} {serial : Nat}
    {problems : Problems} (h : (node.apply v serial).1 = .error problems) :
    ∀ part ∈ problems.parts, part.Evident node [] v := by
  unfold apply at h
  dsimp only at h
  split at h
  · cases h
  · injection h with hproblems
    intro part hpart
    rw [← hproblems] at hpart
    obtain ⟨problem, hproblem, hpart⟩ := Problems.mem_parts_ofList.mp hpart
    exact accountable (hreachable.valid.everywhere_written hnode) hmorph .start v serial problem hproblem part hpart

omit [Behaviour] in
/-- A property with a value of the wrong domain. -/
theorem property_apply_evident : ∃ (space : Space) (node : Node) (v : Value) (problems : Problems),
    let _ := Stock.behaviour
    space.Reachable False ∧ space.Holds node ∧ (node.Everywhere fun n => n.kind ≠ .morph) ∧
      (node.apply v 0).1 = .error problems ∧ ∀ part ∈ problems.parts, part.Evident node [] v := by
  let _ := Stock.behaviour
  let property (key : String) (value : Definition) : Definition := .map [("key", .string key), ("value", value)]
  let written : Definition := .map [("domain", .string "object"), ("required", property "a" (.string "number"))]
  let v : Value := .object ⟨0, some .object, .plain, [(.string "a", .null)]⟩
  have hyields : (written.readRoot.yields (.new 0 .standard) fun n =>
      !n.includesMorph && !(n.apply v 0).1.isOk) = true := by
    decide +kernel
  obtain ⟨node, hread, htest⟩ := SpaceM.yields_iff.mp hyields
  obtain ⟨hreachable, -, hholds⟩ :=
    (@Space.Reachable.new _ False 0 .standard).read (d := written) (List.forall_mem_nil _)
  simp only [Bool.and_eq_true, Bool.not_eq_true'] at htest
  have hmorph := (includesMorph_eq_false (hreachable.valid.everywhere_written (hholds node hread))).mp htest.1
  cases happly : (node.apply v 0).1 with
  | ok result =>
      rw [happly] at htest
      cases htest.2
  | error problems =>
      exact ⟨_, node, v, problems, hreachable, hholds node hread, hmorph, happly,
        apply_evident hreachable (hholds node hread) hmorph happly⟩

end Node

end SchemaAlgebra
