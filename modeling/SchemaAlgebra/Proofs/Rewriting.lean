-- SUMMARY: Rules that rewrite a property while a value is validated, and which other rules that can mislead.
import SchemaAlgebra.Proofs.Decision
import SchemaAlgebra.Proofs.Explanation
import SchemaAlgebra.Proofs.Updates

/-!
# Rewriting

A property rule whose value includes a morph replaces the property, and the rules
after it see the object that results. They judge it as they would the original
unless they ask for the same key, or for another spelling of the same array index.
Where no rule is misled like that, a value that a node refuses is never accepted
and transformed.
-/

namespace SchemaAlgebra

-- ---------------------------------------------------------------------------
-- Rules
-- ---------------------------------------------------------------------------

/-- The key and the value of a property rule. -/
def Content.property? {ν : Type} : Content ν → Option (PropKey × ν)
  | .required key value => some (key, value)
  | .optional key value => some (key, value)
  | _ => none

theorem Finding.backInto_object (finding : Finding) (o : Object Value) (key : PropKey) :
    (finding.backInto (.object o) key true).value = .object (o.withProp finding.nextSerial key finding.value) := rfl

namespace Node

/-- Whether what a rule rewrites is what another one asks for. -/
def disturbs (rule other : Node) : Bool :=
  match rule.content.property?, other.content.property? with
  | some (key, value), some (key', _) => value.includesMorph && key.overlaps key'
  | _, _ => false

/-- Whether no rule of an intersection rewrites what a later one asks for. -/
def undisturbed (node : Node) : Bool :=
  match node.content with
  | .intersection _ constraints => decide (constraints.Pairwise fun rule later => rule.disturbs later = false)
  | _ => true

/-- Property rules are the last in the order of kinds. -/
theorem property?_isSome_iff {content : Content Node} :
    content.property?.isSome = true ↔ Kind.required.order ≤ content.kind.order := by
  cases content <;> simp [Content.property?, Content.kind, Kind.order]

theorem property?_isSome_of_constraintLE {a b : Node} (h : constraintLE a b = true)
    (ha : a.content.property?.isSome = true) : b.content.property?.isSome = true := by
  rw [property?_isSome_iff] at ha ⊢
  rcases constraintLE_iff.mp h with hlt | ⟨heq, -⟩
  · exact ha.trans hlt.le
  · exact ha.trans heq.le

variable [Behaviour]

/-- What a constraint does to a value: nothing, or it puts the result for a property in its place. -/
theorem traverse_constraint {rule : Node} (h : rule.kind.isConstraint = true) (scene : Scene) (v : Value)
    (serial : Nat) : (rule.traverse scene v serial).value = v ∨ ∃ key value o x, rule.content.property? = some (key, value) ∧
      value.includesMorph = true ∧ v = .object o ∧ o.get? key = some x ∧
      rule.traverse scene v serial = (value.traverse (scene.enter key) x serial).backInto v key true := by
  -- Only an object has properties, and only one with a morph in its value is replaced.
  have hback (finding : Finding) (key : PropKey) (value : Node) {x : Value} (hget : v.get? key = some x) :
      (finding.backInto v key value.includesMorph).value = v ∨ ∃ o, value.includesMorph = true ∧ v = .object o ∧
        o.get? key = some x ∧ finding.backInto v key value.includesMorph = finding.backInto v key true := by
    cases v with
    | object o =>
        cases hmorph : value.includesMorph with
        | true => exact .inr ⟨o, rfl, rfl, hget, rfl⟩
        | false => exact .inl rfl
    | _ => cases hget
  cases rule with
  | mk content caption profile =>
      rw [traverse]
      split
      · exact .inl rfl
      · cases content with
        | required key value =>
            rw [Content.traverse]
            cases hget : v.get? key with
            | none => exact .inl rfl
            | some x =>
                rcases hback (value.traverse (scene.enter key) x serial) key value hget with
                  hsame | ⟨o, hmorph, hv, hx, heq⟩
                · exact .inl hsame
                · exact .inr ⟨key, value, o, x, rfl, hmorph, hv, hx, heq⟩
        | optional key value =>
            rw [Content.traverse]
            cases hget : v.get? key with
            | none => exact .inl rfl
            | some x =>
                rcases hback (value.traverse (scene.enter key) x serial) key value hget with
                  hsame | ⟨o, hmorph, hv, hx, heq⟩
                · exact .inl hsame
                · exact .inr ⟨key, value, o, x, rfl, hmorph, hv, hx, heq⟩
        | union branches ordered => cases h
        | morph input output transforms => cases h
        | intersection basis constraints => cases h
        | _ =>
            simp only [Content.traverse]
            split <;> exact .inl rfl

/-- A property rule looks at the value under its key only. -/
theorem allows_of_get? {rule : Node} {key : PropKey} {value : Node} (h : rule.content.property? = some (key, value))
    {v w : Value} (hget : v.get? key = w.get? key) : rule.allows v = rule.allows w := by
  cases rule with
  | mk content caption profile =>
      cases content with
      | required k n =>
          obtain ⟨rfl, rfl⟩ := Prod.mk.inj (Option.some.inj h)
          rw [allows_mk, allows_mk, Content.allows, Content.allows, hget]
      | optional k n =>
          obtain ⟨rfl, rfl⟩ := Prod.mk.inj (Option.some.inj h)
          rw [allows_mk, allows_mk, Content.allows, Content.allows, hget]
      | _ => cases h

/-- A rule judges a value as it did before an earlier rule rewrote a property of it, unless that one disturbs it. -/
theorem allows_traverse {rule later : Node} (hrule : rule.kind.isConstraint = true)
    (hlater : constraintLE rule later = true) (hdisturbs : rule.disturbs later = false) (scene : Scene) (v : Value)
    (serial : Nat) : later.allows (rule.traverse scene v serial).value = later.allows v := by
  rcases traverse_constraint hrule scene v serial with hsame | ⟨key, value, o, x, hproperty, hmorph, rfl, -, heq⟩
  · rw [hsame]
  obtain ⟨⟨key', value'⟩, hproperty'⟩ := Option.isSome_iff_exists.mp
    (property?_isSome_of_constraintLE hlater (by rw [hproperty]; rfl))
  simp only [disturbs, hproperty, hproperty', hmorph, Bool.true_and] at hdisturbs
  rw [heq, Finding.backInto_object]
  exact allows_of_get? hproperty' (Object.get?_withProp hdisturbs o _ _)

-- ---------------------------------------------------------------------------
-- Refusals
-- ---------------------------------------------------------------------------

/-- A traversal that finds no problem is of a value that the node allows. -/
def Honest (node : Node) : Prop :=
  ∀ scene v serial, (node.traverse scene v serial).isSound = true → node.allows v = true

theorem honest_option {node : Option Node} (h : ∀ n ∈ node, n.Honest) {scene : Scene} {v : Value} {serial : Nat}
    (hsound : (traverseOption node scene v serial).isSound = true) : basisAllows node v = true := by
  cases node with
  | none => rfl
  | some node => exact h node rfl scene v serial hsound

/-- The finding is that of a branch which is eligible by its place. -/
def FoundBy (branches : List Node) (eligible : Nat → Bool) (place : Nat) (scene : Scene) (v : Value)
    (finding : Finding) : Prop :=
  ∃ i branch serial, branches[i]? = some branch ∧ eligible (place + i) = true ∧
    finding = branch.traverse scene v serial

theorem FoundBy.cons {branch : Node} {rest : List Node} {eligible : Nat → Bool} {place : Nat} {scene : Scene}
    {v : Value} {finding : Finding} (h : FoundBy rest eligible (place + 1) scene v finding) :
    FoundBy (branch :: rest) eligible place scene v finding := by
  obtain ⟨i, found, serial, hfound, heligible, heq⟩ := h
  rw [Nat.add_right_comm] at heligible
  exact ⟨i + 1, found, serial, hfound, heligible, heq⟩

/-- A union that reports nothing gives what one of its branches makes of the value. -/
theorem found_of_conclude {branches : List Node} {eligible : Nat → Bool} {place : Nat} {failures : List Problems}
    (hfailures : ∀ f ∈ failures, f.list ≠ []) {inner outer : Scene} {description : String} {v : Value} {serial : Nat}
    (hsound : ((tryBranches eligible place failures branches inner v serial).conclude outer description v).isSound =
      true) : FoundBy branches eligible place inner v
        ((tryBranches eligible place failures branches inner v serial).conclude outer description v) := by
  induction branches generalizing place failures serial with
  | nil =>
      rw [tryBranches] at hsound
      cases hreverse : failures.reverse with
      | nil => rw [hreverse] at hsound; cases hsound
      | cons failure more =>
          rw [hreverse] at hsound
          cases more with
          | nil =>
              have hmem : failure ∈ failures := List.mem_reverse.mp (by rw [hreverse]; exact List.mem_cons_self)
              exact absurd (List.isEmpty_iff.mp hsound) (hfailures failure hmem)
          | cons second more => cases hsound
  | cons branch rest ih =>
      rw [tryBranches] at hsound ⊢
      split at hsound
      · rename_i heligible
        rw [if_pos heligible]
        dsimp only at hsound ⊢
        split at hsound
        · rename_i hfound
          rw [if_pos hfound]
          exact ⟨0, branch, serial, rfl, heligible, rfl⟩
        · rename_i hfound
          rw [if_neg hfound]
          have hproblems := fun hnone => hfound (List.isEmpty_iff.mpr hnone)
          exact (ih (List.forall_mem_cons.mpr ⟨Problems.ofList_list_ne_nil hproblems, hfailures⟩) hsound).cons
      · rename_i heligible
        rw [if_neg heligible]
        exact (ih hfailures hsound).cons

/-- A union that reports nothing has a branch that allows the value. -/
theorem honest_branches {branches : List Node} (h : ∀ b ∈ branches, b.Honest) {eligible : Nat → Bool}
    {inner outer : Scene} {description : String} {v : Value} {serial : Nat}
    (hsound : ((tryBranches eligible 0 [] branches inner v serial).conclude outer description v).isSound = true) :
    someAllowsAt eligible 0 branches v = true := by
  obtain ⟨i, branch, later, hbranch, heligible, heq⟩ := found_of_conclude (List.forall_mem_nil _) hsound
  rw [heq] at hsound
  exact Discriminant.someAllowsAt_iff.mpr
    ⟨i, branch, hbranch, heligible, h branch (List.mem_of_getElem? hbranch) inner v later hsound⟩

/-- Rules that are gone through in order and disturb no later one all allow the value as it was in the beginning. -/
theorem honest_rules {rules : List Node} (h : ∀ r ∈ rules, r.Honest) (hkinds : ∀ r ∈ rules, r.kind.isConstraint = true)
    (hsorted : rules.Pairwise (constraintLE · ·)) (hapart : rules.Pairwise fun a b => a.disturbs b = false)
    {scene : Scene} {v : Value} {serial : Nat} (hsound : (traverseAll rules scene v serial).isSound = true) :
    everyAllows rules v = true := by
  induction rules generalizing scene v serial with
  | nil => rfl
  | cons rule rest ih =>
      obtain ⟨hrule, hrest⟩ := List.forall_mem_cons.mp h
      obtain ⟨hkind, hkinds⟩ := List.forall_mem_cons.mp hkinds
      obtain ⟨hfirst, hsorted⟩ := List.pairwise_cons.mp hsorted
      obtain ⟨hdisturbs, hapart⟩ := List.pairwise_cons.mp hapart
      rw [traverseAll, Finding.isSound] at hsound
      obtain ⟨hnow, hlater⟩ := List.append_eq_nil_iff.mp (List.isEmpty_iff.mp hsound)
      have hallows := ih hrest hkinds hsorted hapart (List.isEmpty_iff.mpr hlater)
      rw [everyAllows, Bool.and_eq_true]
      refine ⟨hrule scene v serial (List.isEmpty_iff.mpr hnow), ?_⟩
      rw [Discriminant.everyAllows_iff] at hallows ⊢
      intro later hmem
      rw [← allows_traverse hkind (hfirst later hmem) (hdisturbs later hmem) scene v serial]
      exact hallows later hmem

omit [Behaviour] in
theorem property?_of_isBasis {content : Content Node} (h : content.kind.isBasis = true) : content.property? = none := by
  cases content <;> first | rfl | cases h

theorem traverse_basis {basis : Option Node} (h : ∀ b ∈ basis, b.isBasis = true) (scene : Scene) (v : Value)
    (serial : Nat) : (traverseOption basis scene v serial).value = v := by
  cases basis with
  | none => rfl
  | some b =>
      rcases traverse_constraint (isConstraint_of_isBasis (h b rfl)) scene v serial with
        hsame | ⟨key, value, -, -, hproperty, -⟩
      · exact hsame
      · cases (property?_of_isBasis (h b rfl)).symm.trans hproperty

omit [Behaviour] in
theorem isSound_backInto (finding : Finding) (whole : Value) (key : PropKey) (replace : Bool) :
    (finding.backInto whole key replace).isSound = finding.isSound := by
  cases whole with
  | object o => cases replace <;> rfl
  | _ => rfl

omit [Behaviour] in
theorem isSound_andThen {finding : Finding} {next : Value → Nat → Finding}
    (h : (finding.andThen next).isSound = true) :
    finding.isSound = true ∧ (next finding.value finding.nextSerial).isSound = true := by
  unfold Finding.andThen at h
  split at h
  · rename_i hfirst
    exact ⟨hfirst, h⟩
  · rename_i hfirst
    exact absurd h hfirst

theorem honest_content {content : Content Node} (profile : Profile) (h : ∀ c ∈ content.children, c.Honest)
    (hsettled : content.Sound) (hapart : ∀ basis constraints, content = .intersection basis constraints →
      constraints.Pairwise fun rule later => rule.disturbs later = false) {scene : Scene} {v : Value} {serial : Nat}
    (hsound : (Content.traverse profile content scene v serial).isSound = true) :
    content.allows profile.discriminant v = true := by
  cases content with
  | union branches ordered =>
      simp only [Content.allows, Content.traverse] at hsound ⊢
      cases hd : profile.discriminant with
      | none =>
          rw [hd] at hsound
          exact honest_branches h hsound
      | some d =>
          rw [hd] at hsound
          exact honest_branches h hsound
  | morph input output transforms =>
      exact h input List.mem_cons_self scene v serial (isSound_andThen (isSound_andThen hsound).1).1
  | intersection basis constraints =>
      obtain ⟨hbasis, hrest⟩ := List.forall_mem_append.mp h
      obtain ⟨hfirst, hrules⟩ := isSound_andThen hsound
      rw [traverse_basis hsettled.isBasis] at hrules
      rw [Content.allows, Bool.and_eq_true]
      refine ⟨honest_option (fun b hb => hbasis b (Option.mem_toList.mpr hb)) hfirst, ?_⟩
      refine honest_rules hrest (fun r hr => ?_) hsettled.sorted (hapart basis constraints rfl) hrules
      exact hsettled.areConstraints r (List.mem_append_right _ hr)
  | required key value =>
      simp only [Content.allows, Content.traverse] at hsound ⊢
      cases hget : v.get? key with
      | none => rw [hget] at hsound; cases hsound
      | some x =>
          rw [hget] at hsound
          exact h value List.mem_cons_self _ x serial ((isSound_backInto _ _ _ _).symm.trans hsound)
  | optional key value =>
      simp only [Content.allows, Content.traverse] at hsound ⊢
      cases hget : v.get? key with
      | none => rfl
      | some x =>
          rw [hget] at hsound
          exact h value List.mem_cons_self _ x serial ((isSound_backInto _ _ _ _).symm.trans hsound)
  | _ =>
      rw [allows_of_not_union (by rintro ⟨⟩)]
      simp only [Content.traverse] at hsound
      split at hsound
      · assumption
      · cases hsound

/-- Where no rule disturbs a later one, a traversal finds a problem with every value that is refused. -/
theorem honest {registry : Registry} {node : Node} (hwritten : node.Everywhere (Written registry))
    (hapart : node.Everywhere fun n => n.undisturbed = true) : node.Honest := by
  induction node using induct with
  | step content caption profile ih =>
      intro scene v serial hsound
      rw [traverse] at hsound
      rw [allows_mk]
      split at hsound
      · rename_i hquick
        rw [Bool.and_eq_true] at hquick
        exact hquick.2
      · refine honest_content profile (fun c hc => ih c hc (hwritten.child hc) (hapart.child hc)) hwritten.self.sound
          (fun basis constraints hc => ?_) hsound
        subst hc
        exact of_decide_eq_true hapart.self

/-- Where no rule of an intersection rewrites what a later one asks for, a value that gives a result is allowed. -/
theorem allows_of_apply {adopting : Prop} {space : Space} (hreachable : space.Reachable adopting) {node : Node}
    (hnode : space.Holds node) (hapart : node.Everywhere fun n => n.undisturbed = true) {v w : Value} {serial : Nat}
    (h : (node.apply v serial).1 = .ok w) : node.allows v = true := by
  refine honest (hreachable.valid.everywhere_written hnode) hapart .start v serial ?_
  simp only [apply] at h
  split at h
  · assumption
  · cases h

omit [Behaviour] in
/-- An object whose digits under a key are parsed was allowed with the digits. -/
theorem parsed_property_allowed : ∃ (space : Space) (node : Node) (v w : Value),
    @Space.Reachable Stock.behaviour False space ∧ space.Holds node ∧ node.includesMorph = true ∧
      (node.Everywhere fun n => n.undisturbed = true) ∧ (@apply Stock.behaviour node v 1).1 = .ok w ∧
      @allows Stock.behaviour node v = true := by
  let _ := Stock.behaviour
  let parsing : Definition := .map [("in", .string "string"), ("morph", .transform ⟨0, none, "parseInt"⟩)]
  let written : Definition := .map [("basis", .string "object"),
    ("required", .list [.map [("key", .string "a"), ("value", parsing)]])]
  let v : Value := .object ⟨0, some .object, .plain, [(.string "a", .string "5")]⟩
  have hyields : (written.readRoot.yields (.new 0 .standard) fun n => n.includesMorph &&
      (n.Everywhere fun n => n.undisturbed = true) && (n.traverse .start v 1).isSound) = true := by
    decide +kernel
  obtain ⟨node, hread, htest⟩ := SpaceM.yields_iff.mp hyields
  obtain ⟨hreachable, -, hholds⟩ :=
    (@Space.Reachable.new _ False 0 .standard).read (d := written) (List.forall_mem_nil _)
  simp only [Bool.and_eq_true, decide_eq_true_eq] at htest
  obtain ⟨⟨hmorph, hapart⟩, hsound⟩ := htest
  have happly : (node.apply v 1).1 = .ok (node.traverse .start v 1).value := if_pos hsound
  exact ⟨_, node, v, _, hreachable, hholds node hread, hmorph, hapart, happly,
    allows_of_apply hreachable (hholds node hread) hapart happly⟩

end Node

end SchemaAlgebra
