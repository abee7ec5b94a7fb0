-- SUMMARY: Discriminants only skip branches that refuse the value.
import SchemaAlgebra.Node.Discrimination
import SchemaAlgebra.Proofs.LiteralText
import Mathlib.Data.List.Basic

/-!
# Exactness of discriminants

A branch can only allow values that give the answer the branch gives, so trying
just the branches of the value's case decides the union.
-/

namespace SchemaAlgebra

namespace Discriminant

-- ---------------------------------------------------------------------------
-- Cases
-- ---------------------------------------------------------------------------

/-- The places that are listed for an answer. -/
def placesOf (answer : Option String) (cases : List DiscriminantCase) : List Nat :=
  match cases.find? fun c => c.key.text? == answer with
  | some c => c.branches
  | none => []

theorem placesOf_addBranch (answer : Option String) (key : CaseKey) (place : Nat) (cases : List DiscriminantCase) :
    placesOf answer (addBranch key place cases) =
      if key.text? = answer then placesOf answer cases ++ [place] else placesOf answer cases := by
  induction cases with
  | nil => by_cases hkey : key.text? = answer <;> simp [placesOf, addBranch, hkey]
  | cons c rest ih =>
      by_cases hc : c.key.text? = key.text?
      · by_cases hkey : key.text? = answer
        · simp [placesOf, addBranch, hc, hkey]
        · simp [placesOf, addBranch, hc, hkey]
      · by_cases hanswer : c.key.text? = answer
        · have hne : ¬ key.text? = answer := fun h => hc (hanswer.trans h.symm)
          rw [addBranch, if_neg hc, if_neg hne]
          simp [placesOf, hanswer]
        · simpa [placesOf, addBranch, hc, hanswer] using ih

/-- The places of a case are those of the branches that give its answer. -/
theorem mem_placesOf_casesOf {keys : List CaseKey} {i : Nat} {key : CaseKey} (h : keys[i]? = some key) :
    i ∈ placesOf key.text? (casesOf keys) := by
  have hfold (pairs : List (CaseKey × Nat)) (cases : List DiscriminantCase) :
      placesOf key.text? (pairs.foldl (fun cases pair => addBranch pair.1 pair.2 cases) cases) =
        placesOf key.text? cases ++ (pairs.filter fun pair => pair.1.text? = key.text?).map Prod.snd := by
    induction pairs generalizing cases with
    | nil => simp
    | cons pair rest ih =>
        rw [List.foldl_cons, ih, placesOf_addBranch]
        by_cases hpair : pair.1.text? = key.text? <;> simp [hpair]
  have hcases : placesOf key.text? (casesOf keys) =
      (keys.zipIdx.filter fun pair => pair.1.text? = key.text?).map Prod.snd :=
    (hfold keys.zipIdx []).trans (List.nil_append _)
  rw [hcases]
  refine List.mem_map.mpr ⟨(key, i), List.mem_filter.mpr ⟨?_, ?_⟩, rfl⟩
  · exact List.mem_zipIdx_iff_getElem?.mpr h
  · simp

/-- The branches that are left for a value include every branch with the value's answer. -/
theorem contains_of_ofAnswers? {probe : Probe} {path : List PropKey} {keys : List CaseKey} {d : Discriminant}
    (h : ofAnswers? probe path keys = some d) {i : Nat} {key : CaseKey} {v : Value} (hkey : keys[i]? = some key)
    (hanswer : (⟨probe, path, casesOf keys⟩ : Discriminant).answer? v = key.text?) :
    (d.candidates v).contains i = true := by
  unfold ofAnswers? at h
  dsimp only at h
  split at h
  · rename_i hall
    cases h
    obtain ⟨answer, htext⟩ := Option.isSome_iff_exists.mp
      (List.all_eq_true.mp hall.1 key (List.mem_of_getElem? hkey))
    have hmem := mem_placesOf_casesOf hkey
    rw [htext] at hmem hanswer
    simp only [candidates, hanswer, List.contains_iff_mem]
    exact hmem
  · cases h

-- ---------------------------------------------------------------------------
-- Questions
-- ---------------------------------------------------------------------------

/-- What is kept of a list step by step was in the list, or kept from the start. -/
theorem mem_of_foldl {α : Type} {step : Option α → α → Option α}
    (hstep : ∀ kept a, step kept a = some a ∨ step kept a = kept)
    {found : List α} {kept : Option α} {a : α} (h : found.foldl step kept = some a) : a ∈ found ∨ kept = some a := by
  induction found generalizing kept with
  | nil => exact .inr h
  | cons first rest ih =>
      rcases ih h with hmem | hkept
      · exact .inl (List.mem_cons_of_mem _ hmem)
      · rcases hstep kept first with heq | heq
        · rw [heq] at hkept
          cases hkept
          exact .inl List.mem_cons_self
        · rw [heq] at hkept
          exact .inr hkept

theorem best?_mem {found : List Discriminant} {d : Discriminant} (h : best? found = some d) : d ∈ found := by
  refine (mem_of_foldl (fun kept a => ?_) h).resolve_right (Option.some_ne_none d ∘ Eq.symm)
  cases kept with
  | none => exact .inl rfl
  | some b =>
      dsimp only
      split
      · exact .inl rfl
      · exact .inr rfl

theorem getElem?_answers? {α : Type} {ask : Node → Option α} {branches : List Node} {answers : List α}
    (h : answers? ask branches = some answers) {i : Nat} {branch : Node} (hb : branches[i]? = some branch) :
    ∃ answer, answers[i]? = some answer ∧ ask branch = some answer := by
  unfold answers? at h
  induction branches generalizing answers i with
  | nil => simp at hb
  | cons first rest ih =>
      rw [List.mapM_cons] at h
      obtain ⟨answer, hanswer, h⟩ := Option.bind_eq_some_iff.mp h
      obtain ⟨others, hothers, h⟩ := Option.bind_eq_some_iff.mp h
      cases h
      cases i with
      | zero =>
          cases hb
          exact ⟨answer, rfl, hanswer⟩
      | succ i => exact ih hothers hb

-- ---------------------------------------------------------------------------
-- Answers of branches and values
-- ---------------------------------------------------------------------------

/-- A unit and the values it allows have one text. -/
theorem text?_of_isUnitFor {u v : Value} (h : u.isUnitFor v = true) :
    (CaseKey.value v).text? = (CaseKey.value u).text? := by
  have hnumber {a b : Number} (h : a.equals b = true) :
      (CaseKey.value (.number b)).text? = (CaseKey.value (.number a)).text? := by
    simp only [CaseKey.text?, Literal.serialize?, Literal.encodeNumber_of_equals h]
  unfold Value.isUnitFor at h
  split at h
  · rename_i n
    cases n with
    | nan => rfl
    | _ => cases h
  · unfold Value.strictlyEquals at h
    split at h
    · exact hnumber h
    · rw [of_decide_eq_true h]

variable [Behaviour]

theorem allows_validator (branch : Node) (v : Value) : (validator branch).allows v = branch.allows v := by
  cases branch with
  | mk content caption profile => cases content <;> rfl

theorem domain_of_basisDomain? {node : Node} {d : Domain} {v : Value} (h : node.basisDomain? = some d)
    (hv : node.allows v = true) : v.domain = d := by
  cases node with
  | mk content caption profile =>
      cases content with
      | domain d' =>
          cases h
          simpa [Node.allows, Content.allows] using hv
      | unit u =>
          cases h
          simp only [Node.allows, Content.allows] at hv
          unfold Value.isUnitFor at hv
          split at hv
          · rfl
          · unfold Value.strictlyEquals at hv
            split at hv
            · rfl
            · rw [of_decide_eq_true hv]
      | proto p =>
          cases h
          cases v <;> first | rfl | cases hv
      | _ => cases h

theorem domain_of_branchDomain? {branch : Node} {d : Domain} {v : Value} (h : branchDomain? branch = some d)
    (hv : branch.allows v = true) : v.domain = d := by
  rw [← allows_validator] at hv
  unfold branchDomain? at h
  generalize validator branch = node at h hv
  cases node with
  | mk content caption profile =>
      cases content with
      | intersection basis constraints =>
          cases basis with
          | none => cases h
          | some basis =>
              simp only [Node.allows, Content.allows, Node.basisAllows, Bool.and_eq_true] at hv
              exact domain_of_basisDomain? h hv.1
      | _ => exact domain_of_basisDomain? h hv

theorem text?_of_branchUnit? {branch : Node} {u v : Value} (h : branchUnit? branch = some u)
    (hv : branch.allows v = true) : (CaseKey.value v).text? = (CaseKey.value u).text? := by
  rw [← allows_validator] at hv
  unfold branchUnit? at h
  generalize validator branch = node at h hv
  cases node with
  | mk content caption profile =>
      cases content with
      | unit w =>
          simp only [Node.content] at h
          split at h
          · cases h
            exact text?_of_isUnitFor hv
          · cases h
      | _ => cases h

theorem everyAllows_iff {rules : List Node} {v : Value} :
    Node.everyAllows rules v = true ↔ ∀ rule ∈ rules, rule.allows v = true := by
  induction rules with
  | nil => simp [Node.everyAllows]
  | cons rule rest ih => simp [Node.everyAllows, ih]

theorem text?_of_branchPropUnit? {branch : Node} {key : PropKey} {u v : Value}
    (h : branchPropUnit? key branch = some u) (hv : branch.allows v = true) :
    ∃ x, v.get? key = some x ∧ (CaseKey.value x).text? = (CaseKey.value u).text? := by
  rw [← allows_validator] at hv
  unfold branchPropUnit? at h
  obtain ⟨⟨key', value⟩, hprop, hunit⟩ := List.exists_of_findSome?_eq_some h
  simp only [Option.ite_none_right_eq_some] at hunit
  obtain ⟨rfl, hunit⟩ := hunit
  unfold requiredProps at hprop
  generalize validator branch = node at hprop hv
  cases node with
  | mk content caption profile =>
      cases content with
      | intersection basis constraints =>
          simp only [Node.content] at hprop
          obtain ⟨c, hc, hcontent⟩ := List.mem_filterMap.mp hprop
          simp only [Node.allows, Content.allows, Bool.and_eq_true] at hv
          have hallows := everyAllows_iff.mp hv.2 c hc
          cases c with
          | mk content caption profile =>
              cases content with
              | required key value =>
                  cases hcontent
                  simp only [Node.allows, Content.allows] at hallows
                  cases hget : v.get? key' with
                  | none => rw [hget] at hallows; cases hallows
                  | some x =>
                      rw [hget] at hallows
                      exact ⟨x, rfl, text?_of_branchUnit? hunit hallows⟩
              | _ => cases hcontent
      | _ => cases hprop

-- ---------------------------------------------------------------------------
-- Unions
-- ---------------------------------------------------------------------------

theorem someAllowsAt_iff {eligible : Nat → Bool} {place : Nat} {branches : List Node} {v : Value} :
    Node.someAllowsAt eligible place branches v = true ↔
      ∃ i branch, branches[i]? = some branch ∧ eligible (place + i) = true ∧ branch.allows v = true := by
  induction branches generalizing place with
  | nil => simp [Node.someAllowsAt]
  | cons branch rest ih =>
      simp only [Node.someAllowsAt, Bool.or_eq_true, Bool.and_eq_true, ih]
      constructor
      · rintro (⟨heligible, hv⟩ | ⟨i, b, hb, heligible, hv⟩)
        · exact ⟨0, branch, rfl, heligible, hv⟩
        · exact ⟨i + 1, b, hb, by rwa [show place + (i + 1) = place + 1 + i by omega], hv⟩
      · rintro ⟨i, b, hb, heligible, hv⟩
        cases i with
        | zero =>
            cases hb
            exact .inl ⟨heligible, hv⟩
        | succ i => exact .inr ⟨i, b, hb, by rwa [show place + 1 + i = place + (i + 1) by omega], hv⟩

/-- A branch that allows a value is among those that are tried. -/
theorem contains_of_allows {branches : List Node} {d : Discriminant} (h : ofBranches? branches = some d) {i : Nat}
    {branch : Node} (hb : branches[i]? = some branch) {v : Value} (hv : branch.allows v = true) :
    (d.candidates v).contains i = true := by
  unfold ofBranches? at h
  split at h
  · cases h
  have hmem := best?_mem h
  simp only [questions, List.mem_append, Option.mem_toList, List.mem_filterMap] at hmem
  rcases hmem with (hdomain | hunit) | ⟨key, -, hprop⟩
  · obtain ⟨domains, hall, hd⟩ := Option.bind_eq_some_iff.mp hdomain
    obtain ⟨domain, hi, hask⟩ := getElem?_answers? hall hb
    refine contains_of_ofAnswers? (i := i) hd (by rw [List.getElem?_map, hi]; rfl) ?_
    simp [answer?, follow?, domain_of_branchDomain? hask hv]
  · obtain ⟨units, hall, hd⟩ := Option.bind_eq_some_iff.mp hunit
    obtain ⟨unit, hi, hask⟩ := getElem?_answers? hall hb
    refine contains_of_ofAnswers? (i := i) hd (by rw [List.getElem?_map, hi]; rfl) ?_
    simp [answer?, follow?, text?_of_branchUnit? hask hv]
  · obtain ⟨units, hall, hd⟩ := Option.bind_eq_some_iff.mp hprop
    obtain ⟨unit, hi, hask⟩ := getElem?_answers? hall hb
    obtain ⟨x, hget, htext⟩ := text?_of_branchPropUnit? hask hv
    refine contains_of_ofAnswers? (i := i) hd (by rw [List.getElem?_map, hi]; rfl) ?_
    simp [answer?, follow?, hget, htext]

/-- A union decides by its discriminant as it would without. -/
theorem someAllowsAt_candidates {branches : List Node} {d : Discriminant} (h : ofBranches? branches = some d)
    (v : Value) : Node.someAllowsAt (d.candidates v).contains 0 branches v =
      Node.someAllowsAt (fun _ => true) 0 branches v := by
  rw [Bool.eq_iff_iff, someAllowsAt_iff, someAllowsAt_iff]
  constructor
  · rintro ⟨i, b, hb, -, hv⟩
    exact ⟨i, b, hb, rfl, hv⟩
  · rintro ⟨i, b, hb, -, hv⟩
    refine ⟨i, b, hb, ?_, hv⟩
    rw [Nat.zero_add]
    exact contains_of_allows h hb hv

end Discriminant

end SchemaAlgebra
