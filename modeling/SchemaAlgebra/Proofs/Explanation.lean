-- SUMMARY: Traversing without transforms: what is allowed comes back unchanged, and what is refused is explained.
import SchemaAlgebra.Proofs.Reachable
import SchemaAlgebra.Stock
import SchemaAlgebra.Validation.Traversal

/-!
# Explanations

Where no morph is reachable, traversing a value changes nothing and agrees with
the plain answer: it reports a problem exactly if the value is refused. Each step
of the traversal keeps this, whatever the scene is.
-/

namespace SchemaAlgebra

-- ---------------------------------------------------------------------------
-- Collections of problems
-- ---------------------------------------------------------------------------

namespace Problems

theorem file_ne_nil (problem : Problem) (problems : List Problem) : file problem problems ≠ [] := by
  cases problems with
  | nil => exact List.cons_ne_nil _ _
  | cons earlier rest => unfold file; split <;> exact List.cons_ne_nil _ _

/-- Merging problems at one path leaves at least one. -/
theorem ofList_list_ne_nil {problems : List Problem} (h : problems ≠ []) : (ofList problems).list ≠ [] := by
  have hfold (rest : List Problem) (start : Problems) (hstart : start.list ≠ []) :
      (rest.foldl add start).list ≠ [] := by
    induction rest generalizing start with
    | nil => exact hstart
    | cons problem rest ih => exact ih (start.add problem) (file_ne_nil problem _)
  cases problems with
  | nil => exact absurd rfl h
  | cons problem rest => exact hfold rest (empty.add problem) (file_ne_nil problem _)

end Problems

-- ---------------------------------------------------------------------------
-- Findings
-- ---------------------------------------------------------------------------

/-- The finding leaves the value as it is, and reports something exactly if the value is not accepted. -/
structure Finding.Explains (finding : Finding) (accepts : Bool) (v : Value) (serial : Nat) : Prop where
  value : finding.value = v
  nextSerial : finding.nextSerial = serial
  isSound : finding.isSound = accepts

namespace Finding

variable {v : Value} {serial : Nat}

theorem explains_sound : (sound v serial).Explains true v serial := ⟨rfl, rfl, rfl⟩

theorem explains_problems {problems : List Problem} (h : problems ≠ []) :
    (⟨v, problems, serial⟩ : Finding).Explains false v serial :=
  ⟨rfl, rfl, by simpa [Finding.isSound] using h⟩

theorem explains_report (scene : Scene) (code : ProblemCode Problem) :
    (scene.report code v serial).Explains false v serial :=
  explains_problems (List.cons_ne_nil _ _)

theorem Explains.andThen {first : Finding} {next : Value → Nat → Finding} {accepts accepts' : Bool}
    (h : first.Explains accepts v serial) (hnext : (next v serial).Explains accepts' v serial) :
    (first.andThen next).Explains (accepts && accepts') v serial := by
  unfold Finding.andThen
  rw [h.isSound, h.value, h.nextSerial]
  cases accepts with
  | true => exact hnext
  | false => exact h

/-- Without transforms an object is the one it was. -/
theorem Explains.backInto {finding : Finding} {x : Value} {accepts : Bool} (h : finding.Explains accepts x serial)
    (whole : Value) (key : PropKey) : (finding.backInto whole key false).Explains accepts whole serial := by
  cases whole <;> exact ⟨rfl, h.nextSerial, h.isSound⟩

end Finding

-- ---------------------------------------------------------------------------
-- Lists of nodes
-- ---------------------------------------------------------------------------

variable [Behaviour]

namespace Node

/-- Traversing any value with the node agrees with the plain answer. -/
def Explained (node : Node) : Prop :=
  ∀ scene v serial, (node.traverse scene v serial).Explains (node.allows v) v serial

/-- Some branch is accepted, or every eligible one was tried and failed for a reason. -/
theorem tryBranches_explains {branches : List Node} (h : ∀ b ∈ branches, b.Explained) {eligible : Nat → Bool}
    (place : Nat) {failures : List Problems} (hfailures : ∀ f ∈ failures, f.list ≠ []) (inner outer : Scene)
    (description : String) (v : Value) (serial : Nat) :
    ((tryBranches eligible place failures branches inner v serial).conclude outer description v).Explains
      (someAllowsAt eligible place branches v) v serial := by
  induction branches generalizing place failures with
  | nil =>
      rw [tryBranches, someAllowsAt]
      unfold Attempts.conclude
      split
      · rename_i heq
        cases heq
      · rename_i heq
        injection heq with _ hserial
        rw [← hserial]
        exact Finding.explains_report outer _
      · rename_i failure _ heq
        injection heq with hlist hserial
        rw [← hserial]
        refine Finding.explains_problems (hfailures failure (List.mem_reverse.mp ?_))
        rw [hlist]
        exact List.mem_cons_self
      · rename_i heq
        injection heq with _ hserial
        rw [← hserial]
        exact Finding.explains_report outer _
  | cons branch rest ih =>
      obtain ⟨hbranch, hrest⟩ := List.forall_mem_cons.mp h
      have hfound := hbranch inner v serial
      rw [tryBranches, someAllowsAt]
      cases heligible : eligible place with
      | false =>
          rw [if_neg Bool.false_ne_true, Bool.false_and, Bool.false_or]
          exact ih hrest _ hfailures
      | true =>
          rw [if_pos rfl, Bool.true_and]
          dsimp only
          rw [hfound.isSound]
          cases hallows : branch.allows v with
          | true =>
              rw [if_pos rfl, Bool.true_or, ← hallows]
              exact hfound
          | false =>
              rw [if_neg Bool.false_ne_true, Bool.false_or, hfound.nextSerial]
              refine ih hrest _ (List.forall_mem_cons.mpr ⟨Problems.ofList_list_ne_nil fun hnone => ?_, hfailures⟩)
              have hsound := hfound.isSound
              rw [Finding.isSound, hnone, hallows] at hsound
              cases hsound

theorem traverseAll_explains {rules : List Node} (h : ∀ r ∈ rules, r.Explained) (scene : Scene) (v : Value)
    (serial : Nat) : (traverseAll rules scene v serial).Explains (everyAllows rules v) v serial := by
  induction rules generalizing scene with
  | nil => exact Finding.explains_sound
  | cons rule rest ih =>
      obtain ⟨hrule, hrest⟩ := List.forall_mem_cons.mp h
      have hfirst := hrule scene v serial
      have hlater := ih hrest (scene.after (rule.traverse scene v serial).problems)
      rw [traverseAll, everyAllows, hfirst.value, hfirst.nextSerial]
      refine ⟨hlater.value, hlater.nextSerial, ?_⟩
      rw [← hfirst.isSound, ← hlater.isSound]
      unfold Finding.isSound
      cases (rule.traverse scene v serial).problems <;> rfl

theorem traverseOption_explains {node : Option Node} (h : ∀ n ∈ node, n.Explained) (scene : Scene) (v : Value)
    (serial : Nat) : (traverseOption node scene v serial).Explains (basisAllows node v) v serial := by
  cases node with
  | none => exact Finding.explains_sound
  | some node => exact h node rfl scene v serial

-- ---------------------------------------------------------------------------
-- Nodes
-- ---------------------------------------------------------------------------

/-- Only unions ask a discriminant. -/
theorem allows_of_not_union {content : Content Node} (h : content.kind ≠ .union) (d : Option Discriminant) (v : Value) :
    content.allows d v = content.allows none v := by
  cases content with
  | union branches ordered => exact absurd rfl h
  | proto p => cases v <;> rfl
  | pattern p => cases v <;> rfl
  | _ => rfl

omit [Behaviour] in
theorem leaf_explains {accepts : Bool} (scene : Scene) (description : String) (v : Value) (serial : Nat) :
    (if accepts then Finding.sound v serial else scene.reject description v serial).Explains accepts v serial := by
  cases accepts with
  | true => exact Finding.explains_sound
  | false => exact Finding.explains_report scene _

theorem content_explains {content : Content Node} (profile : Profile) (h : ∀ c ∈ content.children, c.Explained)
    (hmorph : content.kind ≠ .morph) (hvalues : ∀ c ∈ content.children, c.includesMorph = false) (scene : Scene)
    (v : Value) (serial : Nat) : (Content.traverse profile content scene v serial).Explains
      (content.allows profile.discriminant v) v serial := by
  cases content with
  | union branches ordered =>
      simp only [Content.traverse, Content.allows]
      cases profile.discriminant with
      | some d => exact tryBranches_explains h 0 (List.forall_mem_nil _) _ _ _ v serial
      | none => exact tryBranches_explains h 0 (List.forall_mem_nil _) _ _ _ v serial
  | morph input output transforms => exact absurd rfl hmorph
  | intersection basis constraints =>
      obtain ⟨hbasis, hrest⟩ := List.forall_mem_append.mp h
      refine Finding.Explains.andThen ?_ (traverseAll_explains hrest scene v serial)
      exact traverseOption_explains (fun b hb => hbasis b (Option.mem_toList.mpr hb)) scene v serial
  | required key value =>
      rw [Content.traverse, Content.allows, hvalues value List.mem_cons_self]
      cases v.get? key with
      | none => exact Finding.explains_problems (List.cons_ne_nil _ _)
      | some x => exact (h value List.mem_cons_self (scene.enter key) x serial).backInto v key
  | optional key value =>
      rw [Content.traverse, Content.allows, hvalues value List.mem_cons_self]
      cases v.get? key with
      | none => exact Finding.explains_sound
      | some x => exact (h value List.mem_cons_self (scene.enter key) x serial).backInto v key
  | _ =>
      rw [allows_of_not_union (by rintro ⟨⟩)]
      exact leaf_explains scene _ v serial

/-- Traversing without transforms agrees with the plain answer. -/
theorem explained {registry : Registry} {node : Node} (hwritten : node.Everywhere (Written registry))
    (h : node.Everywhere fun n => n.kind ≠ .morph) : node.Explained := by
  induction node using induct with
  | step content caption profile ih =>
      intro scene v serial
      rw [traverse, allows_mk]
      split
      · rename_i hquick
        rw [Bool.and_eq_true] at hquick
        rw [hquick.2]
        exact Finding.explains_sound
      · refine content_explains profile (fun c hc => ih c hc (hwritten.child hc) (h.child hc)) h.self ?_ scene v serial
        exact fun c hc => (includesMorph_eq_false (hwritten.child hc)).mpr (h.child hc)

/-- Where no morph is reachable, applying a node to a value it allows gives that very value, and applying it to any
other value gives at least one problem. -/
theorem apply_agrees {adopting : Prop} {space : Space} (hreachable : space.Reachable adopting) {node : Node}
    (hnode : space.Holds node) (hmorph : node.Everywhere fun n => n.kind ≠ .morph) (v : Value) (serial : Nat) :
    (node.allows v = true → node.apply v serial = (.ok v, serial)) ∧
      (node.allows v = false →
        ∃ problems, node.apply v serial = (.error problems, serial) ∧ problems.list ≠ []) := by
  obtain ⟨hvalue, hserial, hsound⟩ := explained (hreachable.valid.everywhere_written hnode) hmorph .start v serial
  unfold apply
  dsimp only
  rw [hvalue, hserial, hsound]
  refine ⟨fun hallows => by rw [hallows, if_pos rfl], fun hallows => ?_⟩
  rw [hallows, if_neg Bool.false_ne_true]
  refine ⟨_, rfl, Problems.ofList_list_ne_nil fun hnone => ?_⟩
  rw [Finding.isSound, hnone, hallows] at hsound
  cases hsound

omit [Behaviour] in
/-- A required property: an object that has it comes back as it was, and one without it is refused for a reason. -/
theorem property_apply_agrees : ∃ (space : Space) (node : Node), @Space.Reachable Stock.behaviour False space ∧
    space.Holds node ∧ (node.Everywhere fun n => n.kind ≠ .morph) ∧ ∃ having lacking : Value,
      @Node.apply Stock.behaviour node having 0 = (.ok having, 0) ∧
        ∃ problems, @Node.apply Stock.behaviour node lacking 0 = (.error problems, 0) ∧ problems.list ≠ [] := by
  let _ := Stock.behaviour
  let written : Definition := .map [("domain", .string "object"),
    ("required", .map [("key", .string "a"), ("value", .string "string")])]
  let having : Value := .object ⟨0, some .object, .plain, [(.string "a", .string "b")]⟩
  let lacking : Value := .object ⟨1, some .object, .plain, []⟩
  have hyields : (written.readRoot.yields (.new 0 .standard) fun n =>
      !n.includesMorph && n.allows having && !n.allows lacking) = true := by
    decide +kernel
  obtain ⟨node, hread, htest⟩ := SpaceM.yields_iff.mp hyields
  obtain ⟨hreachable, -, hholds⟩ := (@Space.Reachable.new _ False 0 .standard).read (d := written) (List.forall_mem_nil _)
  simp only [Bool.and_eq_true, Bool.not_eq_true'] at htest
  obtain ⟨⟨hmorph, haccepts⟩, hrefuses⟩ := htest
  rw [includesMorph_eq_false (hreachable.valid.everywhere_written (hholds node hread))] at hmorph
  refine ⟨_, node, hreachable, hholds node hread, hmorph, having, lacking, ?_, ?_⟩
  · exact (apply_agrees hreachable (hholds node hread) hmorph having 0).1 haccepts
  · exact (apply_agrees hreachable (hholds node hread) hmorph lacking 0).2 hrefuses

end Node

end SchemaAlgebra
