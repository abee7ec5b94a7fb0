-- SUMMARY: When a node without unions and morphs says all that another says, rule by rule, and that this orders types.
import SchemaAlgebra.Proofs.Lockstep

/-!
# Entailment

A node says all that another says if each rule of the other is entailed by one of its
own: by a unit whose value the rule allows, or by a rule that restricts the same aspect
of a value at least as much. The values of properties are compared in the same way, one
level less deep. Below unions and morphs this orders nodes: two nodes that entail each
other are of one type.
-/

namespace SchemaAlgebra

-- ---------------------------------------------------------------------------
-- Bounds and constructors
-- ---------------------------------------------------------------------------

namespace Bound

variable {side : BoundSide} {a b c : Bound}

/-- Only limits that are numbers compare. -/
theorem scaled?_of_isStricter (h : a.isStricter side b = true) :
    ∃ x y, a.limit.scaled? = some x ∧ b.limit.scaled? = some y := by
  unfold isStricter at h
  split at h
  · rename_i hequals
    obtain ⟨x, hx, hy⟩ := Number.equals_iff.mp hequals
    exact ⟨x, x, hx, hy⟩
  · cases side with
    | min =>
        obtain ⟨y, x, hy, hx, -⟩ := Number.less_iff.mp h
        exact ⟨x, y, hx, hy⟩
    | max =>
        obtain ⟨x, y, hx, hy, -⟩ := Number.less_iff.mp h
        exact ⟨x, y, hx, hy⟩

theorem isStricter_of_unsigned (hnan : a.limit.isNaN = false) (h : a.unsigned = b.unsigned) :
    a.isStricter side b = true := by
  obtain ⟨x, hx⟩ := Number.scaled?_isSome hnan
  rw [← isStricter_unsigned, ← h, isStricter_unsigned, isStricter_iff hx hx]
  refine .inl ⟨rfl, ?_⟩
  cases a.exclusive
  · exact .inr rfl
  · exact .inl rfl

theorem isStricter_trans (h : a.isStricter side b = true) (h' : b.isStricter side c = true) :
    a.isStricter side c = true := by
  obtain ⟨x, y, hx, hy⟩ := scaled?_of_isStricter h
  obtain ⟨y', z, hy', hz⟩ := scaled?_of_isStricter h'
  rw [isStricter_iff hx hy] at h
  rw [isStricter_iff hy hz] at h'
  rw [isStricter_iff hx hz]
  cases side <;> simp only [BoundSide.CutsMore] at h h' ⊢ <;> grind

/-- Of two bounds one is at least as strict as the other. -/
theorem isStricter_total (ha : a.limit.isNaN = false) (hb : b.limit.isNaN = false)
    (h : ¬ a.isStricter side b = true) : b.isStricter side a = true := by
  obtain ⟨x, hx⟩ := Number.scaled?_isSome ha
  obtain ⟨y, hy⟩ := Number.scaled?_isSome hb
  rw [isStricter_iff hx hy] at h
  rw [isStricter_iff hy hx]
  cases side <;> simp only [BoundSide.CutsMore] at h ⊢ <;> grind

theorem leavesNothing_iff {max min : Bound} {x y : Int} (hx : max.limit.scaled? = some x)
    (hy : min.limit.scaled? = some y) :
    max.leavesNothing min = true ↔ x < y ∨ x = y ∧ (min.exclusive = true ∨ max.exclusive = true) := by
  simp only [leavesNothing, Bool.or_eq_true, Bool.and_eq_true, Number.less_iff, Number.equals_iff, hx, hy]
  grind

/-- Bounds that leave nothing between them leave nothing when they are stricter. -/
theorem leavesNothing_of_isStricter {max max' min min' : Bound} (h : max'.leavesNothing min' = true)
    (hmax : max.isStricter .max max' = true) (hmin : min.isStricter .min min' = true) :
    max.leavesNothing min = true := by
  obtain ⟨x, x', hx, hx'⟩ := scaled?_of_isStricter hmax
  obtain ⟨y, y', hy, hy'⟩ := scaled?_of_isStricter hmin
  rw [leavesNothing_iff hx' hy'] at h
  rw [isStricter_iff hx hx'] at hmax
  rw [isStricter_iff hy hy'] at hmin
  rw [leavesNothing_iff hx hy]
  simp only [BoundSide.CutsMore] at hmax hmin
  grind

/-- Bounds on one axis that are as strict as each other are the same but for the sign of zero. -/
theorem unsigned_eq_of_isStricter (haxis : a.axis = b.axis) (h : a.isStricter side b = true)
    (h' : b.isStricter side a = true) : a.unsigned = b.unsigned := by
  obtain ⟨x, y, hx, hy⟩ := scaled?_of_isStricter h
  rw [isStricter_iff hx hy] at h
  rw [isStricter_iff hy hx] at h'
  have heq : x = y := by
    cases side <;> simp only [BoundSide.CutsMore] at h h' <;> grind
  have hexclusive : a.exclusive = b.exclusive := by
    grind
  have hlimit := Number.unsigned_eq_of_scaled? hx (heq ▸ hy)
  cases a
  cases b
  simp_all [unsigned]

end Bound

namespace Proto

/-- No constructor derives from one that derives from it. -/
theorem isSubclassOf_antisymm {a b : Proto} (h : a.isSubclassOf b = true) (h' : b.isSubclassOf a = true) : a = b := by
  have hsize {p q : Proto} (h : p.isSubclassOf q = true) : p = q ∨ sizeOf q < sizeOf p := by
    induction p with
    | object =>
        simp only [isSubclassOf, chain, List.contains_cons, List.contains_nil, Bool.or_false, beq_iff_eq] at h
        exact .inl h.symm
    | extending serial name parent ih =>
        rcases isSubclassOf_extending.mp h with rfl | h
        · exact .inl rfl
        · rcases ih h with rfl | hlt
          · exact .inr (by simp)
          · exact .inr (by simp; omega)
  rcases hsize h with heq | hlt
  · exact heq
  · rcases hsize h' with heq | hlt'
    · exact heq.symm
    · omega

end Proto

-- ---------------------------------------------------------------------------
-- Rules
-- ---------------------------------------------------------------------------

/-- A content restricts one aspect of a value at least as much as another does. -/
inductive Content.Implies (entails : Node → Node → Prop) : Content Node → Content Node → Prop where
  | proto {a b : Proto} (h : a.isSubclassOf b = true) : Implies entails (.proto a) (.proto b)
  | object (a : Proto) : Implies entails (.proto a) (.domain .object)
  | domain (d : Domain) : Implies entails (.domain d) (.domain d)
  | divisor {a b : Nat} (h : b ∣ a) : Implies entails (.divisor a) (.divisor b)
  | max {a b : Bound} (haxis : a.axis = b.axis) (h : a.isStricter .max b = true) : Implies entails (.max a) (.max b)
  | min {a b : Bound} (haxis : a.axis = b.axis) (h : a.isStricter .min b = true) : Implies entails (.min a) (.min b)
  | pattern (p : Pattern) : Implies entails (.pattern p) (.pattern p)
  | predicate (p : Predicate) : Implies entails (.predicate p) (.predicate p)
  | required (key : PropKey) {a b : Node} (h : entails a b) : Implies entails (.required key a) (.required key b)
  | optional (key : PropKey) {a b : Node} (h : entails a b) : Implies entails (.optional key a) (.optional key b)

theorem Content.Implies.slot?_eq {entails : Node → Node → Prop} {a b : Content Node} (h : a.Implies entails b) :
    a.slot? = b.slot? := by
  cases h with
  | max haxis => exact congrArg (some <| Slot.max ·) haxis
  | min haxis => exact congrArg (some <| Slot.min ·) haxis
  | _ => rfl

theorem Content.Implies.not_unit {entails : Node → Node → Prop} {a b : Content Node} (h : a.Implies entails b) :
    a.kind ≠ .unit ∧ b.kind ≠ .unit := by
  cases h <;> exact ⟨by rintro ⟨⟩, by rintro ⟨⟩⟩

namespace Node

variable [Behaviour]

/-- A rule says all that another says. -/
def RuleEntails (entails : Node → Node → Prop) (p q : Node) : Prop :=
  (∃ v, p.content = .unit v ∧ q.allows v = true) ∨ p.content.Implies entails q.content

/-- Each of the rules `qs` is entailed by one of the rules `ps`. -/
def Support (entails : Node → Node → Prop) (ps qs : List Node) : Prop := ∀ q ∈ qs, ∃ p ∈ ps, RuleEntails entails p q

/-- A node that nests to less than a depth says all that another says. -/
def Entails : (depth : Nat) → Node → Node → Prop
  | 0, _, _ => False
  | depth + 1, a, b => Support (Entails depth) a.rules b.rules

/-- A node of a space within reach at a depth, with no unions and morphs in it. -/
structure Simple (depth : Nat) (space : Space) (node : Node) : Prop extends Calm False depth space node where
  simple : space.Regular → node.Everywhere fun n => n.kind ≠ .union ∧ n.kind ≠ .morph

/-- A node that is no bare refinement, with no unions and morphs in it. -/
structure SimpleRoot (depth : Nat) (space : Space) (node : Node) : Prop extends Simple depth space node where
  root : space.Regular → node.isRefinement = false

/-- Rules side by side, with no unions and morphs in them. -/
structure SimpleRules (depth : Nat) (space : Space) (rules : List Node) : Prop where
  areRules : Rules False depth space rules
  simple : space.Regular → ∀ e ∈ rules, e.Everywhere fun n => n.kind ≠ .union ∧ n.kind ≠ .morph

/-- A comparison orders the types of nodes within reach at a depth. -/
structure Orders (entails : Node → Node → Prop) (depth : Nat) (space : Space) : Prop where
  alike : ∀ a b, a.SimpleRoot depth space → b.SimpleRoot depth space → a.sameType b = true → entails a b
  trans : ∀ a b c, a.SimpleRoot depth space → b.SimpleRoot depth space → c.SimpleRoot depth space →
    entails a b → entails b c → entails a c
  sound : ∀ a b, a.SimpleRoot depth space → b.SimpleRoot depth space → entails a b →
    ∀ v, a.allows v = true → b.allows v = true
  antisymm : ∀ a b, a.SimpleRoot depth space → b.SimpleRoot depth space → entails a b → entails b a →
    a.sameType b = true

/-- How a property is made from its value. -/
inductive Property : (Node → Content Node) → Prop where
  | required (key : PropKey) : Property (.required key)
  | optional (key : PropKey) : Property (.optional key)

variable {entails : Node → Node → Prop} {depth : Nat} {space later : Space} {a b c p q r : Node} {ps qs rs : List Node}

omit [Behaviour] in
theorem Property.implies_iff {make : Node → Content Node} (h : Property make) :
    (make a).Implies entails (make b) ↔ entails a b := by
  cases h with
  | required key => exact ⟨fun h => by cases h; assumption, .required key⟩
  | optional key => exact ⟨fun h => by cases h; assumption, .optional key⟩

theorem Simple.extends (h : p.Simple depth space) (hext : later.Extends space) : p.Simple depth later :=
  ⟨h.toCalm.extends hext, fun hregular => h.simple (hregular.earlier hext)⟩

theorem SimpleRoot.extends (h : p.SimpleRoot depth space) (hext : later.Extends space) : p.SimpleRoot depth later :=
  ⟨h.toSimple.extends hext, fun hregular => h.root (hregular.earlier hext)⟩

theorem SimpleRules.extends (h : SimpleRules depth space ps) (hext : later.Extends space) :
    SimpleRules depth later ps :=
  ⟨h.areRules.extends hext, fun hregular => h.simple (hregular.earlier hext)⟩

theorem SimpleRules.rule (h : SimpleRules depth space ps) (hp : p ∈ ps) : p.Simple (depth + 1) space :=
  ⟨h.areRules.calm p hp, fun hregular => h.simple hregular p hp⟩

/-- The value of a simple property is a simple root one level less deep. -/
theorem Simple.value (hvalid : space.Valid) (hp : p.Simple (depth + 1) space) {make : Node → Content Node}
    (hmake : Property make) (hc : p.content = make a) :
    a.SimpleRoot depth space := by
  have hchild : a ∈ p.children := by
    rw [children, hc]
    cases hmake <;> exact List.mem_cons_self
  have hnesting : a.nesting + 1 ≤ p.nesting := by
    rw [nesting_eq p, hc]
    cases hmake <;> exact Nat.le_refl _
  refine ⟨⟨hp.toCalm.deeper hvalid hchild hnesting, fun hregular => (hp.simple hregular).child hchild⟩,
    fun hregular => ?_⟩
  have hexact := hregular.exact p hp.holds
  rw [hc] at hexact
  cases hmake <;> exact hexact

theorem RuleEntails.slot?_eq (h : RuleEntails entails p q) (hunit : p.kind ≠ .unit) :
    p.slot? = q.slot? ∧ q.kind ≠ .unit := by
  rcases h with ⟨v, hc, -⟩ | h
  · exact absurd (by rw [kind, hc]; rfl) hunit
  · exact ⟨h.slot?_eq, h.not_unit.2⟩

/-- Rules that stand apart do not entail each other. -/
theorem RuleEntails.not_beside (h : RuleEntails entails p q) (hconstraint : q.kind.isConstraint = true) :
    ¬ p.Beside true q := by
  intro hbeside
  obtain ⟨slot, hslot⟩ := slot?_isSome hconstraint
  have hslots := (h.slot?_eq hbeside.left).1
  exact absurd (hbeside.slots slot (hslots.trans hslot) hslot).2 (by decide)

-- ---------------------------------------------------------------------------
-- Nodes of one type
-- ---------------------------------------------------------------------------

section

variable (hvalid : space.Valid) (hregular : space.Regular)

include hvalid hregular

omit [Behaviour] in
theorem content_related (ha : space.Holds a) (hb : space.Holds b) (h : a.sameType b = true) :
    a.content.Related (Space.Twins space space) b.content :=
  Space.Twins.content (hvalid.abreast hregular) ⟨ha, hb, eq_of_beq h⟩

omit [Behaviour] in
theorem sameType_of_related (ha : space.Holds a) (hb : space.Holds b)
    (h : a.content.Related (Space.Twins space space) b.content) : a.sameType b = true := by
  have habreast := hvalid.abreast hregular
  refine beq_iff_eq.mpr (Space.twins_of_plain habreast ha hb ?_).typeId
  rw [plain_eq, plain_eq, h.map_eq fun _ _ htwins => htwins.plain_eq habreast]

end

-- ---------------------------------------------------------------------------
-- The order of rules
-- ---------------------------------------------------------------------------

section

variable (hblind : BlindToSign) (hvalid : space.Valid) (hregular : space.Regular) (horders : Orders entails depth space)
  (hp : p.Simple (depth + 1) space) (hq : q.Simple (depth + 1) space)

include hvalid hregular horders hp hq

/-- Rules of one type entail each other. -/
theorem ruleEntails_of_sameType (hconstraint : p.kind.isConstraint = true) (h : p.sameType q = true) :
    RuleEntails entails p q := by
  have hrelated := content_related hvalid hregular hp.holds hq.holds h
  have hsound := (hvalid.written p hp.holds).sound
  have hvalue {make : Node → Content Node} {a b : Node}
      (hmake : Property make) (hc : p.content = make a)
      (hc' : q.content = make b) (h : Space.Twins space space a b) : entails a b :=
    horders.alike a b (hp.value hvalid hmake hc) (hq.value hvalid hmake hc')
      (beq_iff_eq.mpr h.typeId)
  rw [kind] at hconstraint
  unfold RuleEntails
  generalize hc : p.content = c at *
  generalize hc' : q.content = c' at *
  cases hrelated with
  | unit h => exact .inl ⟨_, rfl, (allows_unit hvalid hq.holds hc').mpr h.symm⟩
  | proto a => exact .inr (.proto (Proto.isSubclassOf_self a))
  | domain d => exact .inr (.domain d)
  | divisor d => exact .inr (.divisor (Nat.dvd_refl d))
  | max h => exact .inr (.max (Bound.axis_eq h) (Bound.isStricter_of_unsigned hsound h))
  | min h => exact .inr (.min (Bound.axis_eq h) (Bound.isStricter_of_unsigned hsound h))
  | pattern p => exact .inr (.pattern p)
  | predicate p => exact .inr (.predicate p)
  | required key h => exact .inr (.required key (hvalue (.required key) rfl rfl h))
  | optional key h => exact .inr (.optional key (hvalue (.optional key) rfl rfl h))
  | _ => cases hconstraint

include hblind

/-- A rule allows only what the rules that it entails allow. -/
theorem RuleEntails.sound (h : RuleEntails entails p q) {v : Value} (hv : p.allows v = true) : q.allows v = true := by
  rcases h with ⟨u, hc, hu⟩ | h
  · rw [allows_of_unit hblind hvalid hp.holds hc hv]
    exact hu
  have hvalue {make : Node → Content Node} {a b : Node}
      (hmake : Property make) (hc : p.content = make a)
      (hc' : q.content = make b) (h : entails a b) {x : Value} (hx : a.allows x = true) : b.allows x = true :=
    horders.sound a b (hp.value hvalid hmake hc) (hq.value hvalid hmake hc') h x hx
  have hexact := hregular.exact p hp.holds
  have hexact' := hregular.exact q hq.holds
  have hsound := (hvalid.written p hp.holds).sound
  have hsound' := (hvalid.written q hq.holds).sound
  rw [hvalid.allows hp.holds] at hv
  rw [hvalid.allows hq.holds]
  have hbound {side : BoundSide} {x y : Bound} (hx : x.limit.isNaN = false) (hy : y.limit.isNaN = false)
      (haxis : x.axis = y.axis) (h : x.isStricter side y = true) (hv : x.allows side v = true) :
      y.allows side v = true := by
    have hboth := @Bound.allows_isStricter side x y hx hy haxis v
    rw [if_pos h, hv] at hboth
    exact (Bool.and_eq_true_iff.mp hboth.symm).2
  generalize hc : p.content = c at *
  generalize hc' : q.content = c' at *
  cases h with
  | proto h =>
      cases v with
      | object o => exact Object.isInstanceOf_of_isSubclassOf hv h
      | _ => cases hv
  | object a =>
      cases v with
      | object o => rfl
      | _ => cases hv
  | @divisor m n h =>
      have hboth := Number.isDivisibleBy_lcm hexact hexact' (leastCommonMultiple_eq m n ▸ (Nat.lcm_eq_left h).symm ▸ hexact) v
      rw [leastCommonMultiple_eq, Nat.lcm_eq_left h] at hboth
      change Number.isDivisibleBy m v = true at hv
      rw [hv] at hboth
      exact (Bool.and_eq_true_iff.mp hboth.symm).2
  | max haxis h => exact hbound hsound hsound' haxis h hv
  | min haxis h => exact hbound hsound hsound' haxis h hv
  | required key h =>
      simp only [Content.allows] at hv ⊢
      cases hx : v.get? key with
      | none => rw [hx] at hv; cases hv
      | some x => rw [hx] at hv; exact hvalue (.required key) rfl rfl h hv
  | optional key h =>
      simp only [Content.allows] at hv ⊢
      cases hx : v.get? key with
      | none => rfl
      | some x => rw [hx] at hv; exact hvalue (.optional key) rfl rfl h hv
  | _ => exact hv

theorem RuleEntails.trans (hr : r.Simple (depth + 1) space) (h : RuleEntails entails p q)
    (h' : RuleEntails entails q r) : RuleEntails entails p r := by
  have hvalue {make : Node → Content Node} {a b c : Node}
      (hmake : Property make) (hc : p.content = make a)
      (hc' : q.content = make b) (hc'' : r.content = make c) : entails a b → entails b c → entails a c :=
    horders.trans a b c (hp.value hvalid hmake hc) (hq.value hvalid hmake hc')
      (hr.value hvalid hmake hc'')
  rcases h with ⟨u, hc, hu⟩ | h
  · exact .inl ⟨u, hc, h'.sound hblind hvalid hregular horders hq hr hu⟩
  rcases h' with ⟨u, hc, -⟩ | h'
  · exact absurd (by rw [hc]; rfl) h.not_unit.2
  refine .inr ?_
  generalize hc : p.content = c at *
  generalize hc' : q.content = c' at *
  generalize hc'' : r.content = c'' at *
  cases h with
  | proto h =>
      cases h' with
      | proto h' => exact .proto (Proto.isSubclassOf_trans h h')
      | object => exact .object _
  | object a => cases h'; exact .object a
  | domain d => exact h'
  | divisor h => cases h' with | divisor h' => exact .divisor (Nat.dvd_trans h' h)
  | max haxis h => cases h' with | max haxis' h' => exact .max (haxis.trans haxis') (Bound.isStricter_trans h h')
  | min haxis h => cases h' with | min haxis' h' => exact .min (haxis.trans haxis') (Bound.isStricter_trans h h')
  | pattern p => exact h'
  | predicate p => exact h'
  | required key h =>
      cases h' with | required _ h' => exact .required key (hvalue (.required key) rfl rfl rfl h h')
  | optional key h =>
      cases h' with | optional _ h' => exact .optional key (hvalue (.optional key) rfl rfl rfl h h')

omit hblind in
/-- Rules that entail each other are of one type. -/
theorem RuleEntails.antisymm (h : RuleEntails entails p q) (h' : RuleEntails entails q p) : p.sameType q = true := by
  have hvalue {make : Node → Content Node} {a b : Node}
      (hmake : Property make) (hc : p.content = make a)
      (hc' : q.content = make b) (h : entails a b) (h' : entails b a) : Space.Twins space space a b :=
    have ha := hp.value hvalid hmake hc
    have hb := hq.value hvalid hmake hc'
    ⟨ha.holds, hb.holds, eq_of_beq (horders.antisymm a b ha hb h h')⟩
  refine sameType_of_related hvalid hregular hp.holds hq.holds ?_
  rcases h with ⟨u, hc, hu⟩ | h
  · rcases h' with ⟨w, hc', -⟩ | h'
    · rw [hc, hc']
      exact .unit ((allows_unit hvalid hq.holds hc').mp hu).symm
    · exact absurd (by rw [hc]; rfl) h'.not_unit.2
  rcases h' with ⟨w, hc', -⟩ | h'
  · exact absurd (by rw [hc']; rfl) h.not_unit.2
  generalize hc : p.content = c at *
  generalize hc' : q.content = c' at *
  cases h with
  | proto h => cases h' with | proto h' => exact Proto.isSubclassOf_antisymm h h' ▸ .proto _
  | object a => cases h'
  | domain d => exact .domain d
  | divisor h => cases h' with | divisor h' => exact Nat.dvd_antisymm h h' ▸ .divisor _
  | max haxis h => cases h' with | max _ h' => exact .max (Bound.unsigned_eq_of_isStricter haxis h h')
  | min haxis h => cases h' with | min _ h' => exact .min (Bound.unsigned_eq_of_isStricter haxis h h')
  | pattern p => exact .pattern p
  | predicate p => exact .predicate p
  | required key h => cases h' with | required _ h' => exact .required key (hvalue (.required key) rfl rfl h h')
  | optional key h => cases h' with | optional _ h' => exact .optional key (hvalue (.optional key) rfl rfl h h')

end

-- ---------------------------------------------------------------------------
-- Lists of rules
-- ---------------------------------------------------------------------------

theorem Support.mono {more : List Node} (h : Support entails ps qs) (hsubset : ps ⊆ more) : Support entails more qs := by
  intro q hq
  obtain ⟨p, hp, hentails⟩ := h q hq
  exact ⟨p, hsubset hp, hentails⟩

theorem support_append : Support entails ps (qs ++ rs) ↔ Support entails ps qs ∧ Support entails ps rs :=
  List.forall_mem_append

theorem support_cons : Support entails ps (q :: qs) ↔ (∃ p ∈ ps, RuleEntails entails p q) ∧ Support entails ps qs :=
  List.forall_mem_cons

theorem support_singleton : Support entails ps [q] ↔ ∃ p ∈ ps, RuleEntails entails p q :=
  List.forall_mem_singleton

section

variable (hblind : BlindToSign) (hvalid : space.Valid) (hregular : space.Regular) (horders : Orders entails depth space)

include hvalid hregular horders

theorem support_of_types (hps : ∀ p ∈ ps, p.Simple (depth + 1) space)
    (hqs : ∀ q ∈ qs, q.Simple (depth + 1) space ∧ q.kind.isConstraint = true)
    (h : ∀ q ∈ qs, ∃ p ∈ ps, p.sameType q = true) : Support entails ps qs := by
  intro q hq
  obtain ⟨p, hp, hsame⟩ := h q hq
  have hkind := hvalid.kind_eq (hps p hp).holds (hqs q hq).1.holds hsame
  exact ⟨p, hp, ruleEntails_of_sameType hvalid hregular horders (hps p hp) (hqs q hq).1
    (hkind ▸ (hqs q hq).2) hsame⟩

include hblind

theorem Support.trans (hps : ∀ p ∈ ps, p.Simple (depth + 1) space) (hqs : ∀ q ∈ qs, q.Simple (depth + 1) space)
    (hrs : ∀ r ∈ rs, r.Simple (depth + 1) space) (h : Support entails ps qs) (h' : Support entails qs rs) :
    Support entails ps rs := by
  intro r hr
  obtain ⟨q, hq, hqr⟩ := h' r hr
  obtain ⟨p, hp, hpq⟩ := h q hq
  exact ⟨p, hp, hpq.trans hblind hvalid hregular horders (hps p hp) (hqs q hq) (hrs r hr) hqr⟩

/-- Where rules stand apart, each of the rules that they support and are supported by is of the type of one of them. -/
theorem types_of_support (hps : SimpleRules depth space ps) (hqs : SimpleRules depth space qs)
    (h : Support entails ps qs) (h' : Support entails qs ps) : ∀ q ∈ qs, ∃ p ∈ ps, p.sameType q = true := by
  intro q hq
  obtain ⟨p, hp, hpq⟩ := h q hq
  obtain ⟨q', hq', hqp⟩ := h' p hp
  have hqq := hqp.trans hblind hvalid hregular horders (hqs.rule hq') (hps.rule hp) (hqs.rule hq) hpq
  obtain rfl : q' = q := by
    by_contra hne
    have : Std.Symm (Beside true) := ⟨fun _ _ => Beside.symm⟩
    exact hqq.not_beside (hqs.areRules.areConstraints q hq) ((hqs.areRules.exact hregular).forall hq' hq hne)
  exact ⟨p, hp, hpq.antisymm hvalid hregular horders (hps.rule hp) (hqs.rule hq) hqp⟩

end

-- ---------------------------------------------------------------------------
-- The rules of a node
-- ---------------------------------------------------------------------------

/-- A simple root is an intersection or a basis. -/
theorem SimpleRoot.kind_cases (h : a.SimpleRoot depth space) (hregular : space.Regular) :
    a.kind = .intersection ∨ a.isBasis = true := by
  obtain ⟨hunion, hmorph⟩ := (h.simple hregular).self
  have hroot := h.root hregular
  rw [isRefinement] at hroot
  rw [isBasis]
  generalize a.kind = kind at *
  cases kind <;> first | exact .inl rfl | exact .inr rfl | exact absurd rfl hunion | exact absurd rfl hmorph | cases hroot

theorem SimpleRoot.two_le_order (h : a.SimpleRoot depth space) (hregular : space.Regular) : 2 ≤ a.kind.order := by
  rcases h.kind_cases hregular with hkind | hbasis
  · rw [hkind]
    decide
  · exact two_le_order_of_isConstraint (isConstraint_of_isBasis hbasis)

omit [Behaviour] in
/-- Rules that are not both divisors stand side by side for good. -/
theorem Beside.exact (h : p.Beside false q) (hdivisors : ¬ (p.kind = .divisor ∧ q.kind = .divisor)) :
    p.Beside true q where
  left := h.left
  right := h.right
  slots := by
    have hkind {e : Node} (he : e.slot? = some .divisor) : e.kind = .divisor := by
      obtain ⟨d, hd⟩ := slot?_eq_some he
      rw [kind, hd]
      rfl
    intro slot hs hs'
    obtain ⟨rfl, -⟩ := h.slots slot hs hs'
    exact absurd ⟨hkind hs, hkind hs'⟩ hdivisors
  overflow := h.overflow
  range := h.range

omit [Behaviour] in
/-- The rules of a node are children of it, or it is a rule itself. -/
theorem mem_rules {e : Node} (h : e ∈ a.rules) : e = a ∨ e ∈ a.children := by
  unfold Node.rules at h
  split at h
  · rename_i hc
    exact .inr (by rw [children, hc]; exact h)
  · exact .inl (List.mem_singleton.mp h)

/-- The rules of a node stand side by side. -/
theorem Calm.areRules {safe : Safety} (hvalid : space.Valid) (h : a.Calm safe (depth + 1) space)
    (hkind : 2 ≤ a.kind.order) : Rules safe depth space a.rules := by
  rcases Node.kind_cases hkind with hintersection | hconstraint
  · obtain ⟨basis, constraints, hc⟩ := intersection_of_kind hintersection
    have hrules : a.rules = basis.toList ++ constraints := by
      rw [Node.rules, hc]
    have hcalm := h.rules hvalid hkind
    have hcanonical := hvalid.canonical a h.holds
    have hsound := (hvalid.written a h.holds).sound
    rw [hc] at hcanonical hsound
    refine ⟨fun e he => (hcalm e he).1, fun e he => (hcalm e he).2, hrules ▸ hcanonical, fun hregular => ?_⟩
    have hexact := hregular.exact a h.holds
    rw [hc] at hexact
    have hdivisors : (basis.toList ++ constraints).Pairwise fun e e' => ¬ (e.kind = .divisor ∧ e'.kind = .divisor) := by
      refine List.pairwise_append.mpr ⟨?_, hexact, fun b hb _ _ hboth => ?_⟩
      · cases basis with
        | none => exact .nil
        | some b => exact List.pairwise_singleton _ _
      · have hb := hsound.isBasis b (Option.mem_toList.mp hb)
        rw [isBasis, hboth.1] at hb
        cases hb
    exact hrules ▸ hcanonical.imp₂ (fun _ _ => Beside.exact) hdivisors
  · rw [rules_of_isConstraint hconstraint]
    exact ⟨List.forall_mem_singleton.mpr h, List.forall_mem_singleton.mpr hconstraint, List.pairwise_singleton _ _,
      fun _ => List.pairwise_singleton _ _⟩

/-- The rules of a simple node are simple. -/
theorem Simple.rules (hvalid : space.Valid) (h : a.Simple (depth + 1) space) (hkind : 2 ≤ a.kind.order) :
    SimpleRules depth space a.rules where
  areRules := h.toCalm.areRules hvalid hkind
  simple := by
    intro hregular e he
    rcases mem_rules he with rfl | hchild
    · exact h.simple hregular
    · exact (h.simple hregular).child hchild

/-- The rules of a simple root stand side by side. -/
theorem SimpleRoot.rules (hvalid : space.Valid) (hregular : space.Regular) (h : a.SimpleRoot (depth + 1) space) :
    SimpleRules depth space a.rules :=
  h.toSimple.rules hvalid (h.two_le_order hregular)

-- ---------------------------------------------------------------------------
-- The order of nodes
-- ---------------------------------------------------------------------------

section

variable (hvalid : space.Valid) (hregular : space.Regular) (ha : a.SimpleRoot (depth + 1) space)
  (hb : b.SimpleRoot (depth + 1) space)

include hvalid


omit [Behaviour] in
/-- Constraints of intersections that are of the same types are so in the same order. -/
theorem constraints_of_types {constraints constraints' : List Node} (hc : ∀ c ∈ constraints, space.Holds c)
    (hc' : ∀ c ∈ constraints', space.Holds c) (hdistinct : (constraints.map typeId).Nodup)
    (hdistinct' : (constraints'.map typeId).Nodup) (hsorted : constraints.Pairwise (constraintLE · ·))
    (hsorted' : constraints'.Pairwise (constraintLE · ·))
    (h : ∀ c' ∈ constraints', ∃ c ∈ constraints, c.sameType c' = true)
    (h' : ∀ c ∈ constraints, ∃ c' ∈ constraints', c'.sameType c = true) :
    List.Forall₂ (Space.Twins space space) constraints constraints' := by
  let place (c : Node) : Nat × String := (c.kind.order, c.typeId)
  have hplace {c c' : Node} (hheld : space.Holds c) (hheld' : space.Holds c') (h : c.sameType c' = true) :
      place c = place c' := Prod.ext (congrArg Kind.order (hvalid.kind_eq hheld hheld' h)) (eq_of_beq h)
  have hnodup {nodes : List Node} (h : (nodes.map typeId).Nodup) : (nodes.map place).Nodup := by
    refine List.Nodup.of_map Prod.snd ?_
    rw [List.map_map]
    exact h
  have hmem {nodes nodes' : List Node} (hheld : ∀ c ∈ nodes, space.Holds c) (hheld' : ∀ c ∈ nodes', space.Holds c)
      (h : ∀ c' ∈ nodes', ∃ c ∈ nodes, c.sameType c' = true) (x : Nat × String) (hx : x ∈ nodes'.map place) :
      x ∈ nodes.map place := by
    obtain ⟨c', hmem, rfl⟩ := List.mem_map.mp hx
    obtain ⟨c, hmem', hsame⟩ := h c' hmem
    exact List.mem_map.mpr ⟨c, hmem', hplace (hheld c hmem') (hheld' c' hmem) hsame⟩
  have hperm : (constraints.map place).Perm (constraints'.map place) :=
    (List.perm_ext_iff_of_nodup (hnodup hdistinct) (hnodup hdistinct')).mpr fun x =>
      ⟨hmem hc' hc h' x, hmem hc hc' h x⟩
  have hinOrder {nodes : List Node} (h : nodes.Pairwise (constraintLE · ·)) :
      (nodes.map place).Pairwise fun x y => x.1 < y.1 ∨ x.1 = y.1 ∧ x.2 ≤ y.2 :=
    List.pairwise_map.mpr (h.imp fun h => constraintLE_iff.mp h)
  have heq := hperm.eq_of_pairwise (fun x y _ _ hxy hyx => ?antisymm) (hinOrder hsorted) (hinOrder hsorted')
  case antisymm =>
    rcases hxy with hlt | ⟨horder, hle⟩ <;> rcases hyx with hlt' | ⟨horder', hle'⟩
    · omega
    · omega
    · omega
    · exact Prod.ext horder (String.le_antisymm hle hle')
  exact forall₂_imp_of_mem (forall₂_map_eq.mpr heq) fun c hmem c' hmem' hplaces =>
    ⟨hc c hmem, hc' c' hmem', congrArg Prod.snd hplaces⟩

include hregular ha hb

/-- Nodes of one type have rules of the same types. -/
theorem rules_of_sameType (h : a.sameType b = true) : ∀ q ∈ b.rules, ∃ p ∈ a.rules, p.sameType q = true := by
  have hkind := hvalid.kind_eq ha.holds hb.holds h
  rcases ha.kind_cases hregular with hintersection | hbasis
  · obtain ⟨basis, constraints, hc⟩ := intersection_of_kind hintersection
    obtain ⟨basis', constraints', hc'⟩ := intersection_of_kind (hkind.symm.trans hintersection)
    have hrelated := (content_related hvalid hregular ha.holds hb.holds h).children
    rw [hc, hc'] at hrelated
    have htypes : (basis.toList ++ constraints).map typeId = (basis'.toList ++ constraints').map typeId :=
      forall₂_map_eq.mp (hrelated.imp fun _ _ htwins => htwins.typeId)
    rw [Node.rules, Node.rules, hc, hc']
    intro q hq
    obtain ⟨p, hp, htype⟩ := List.mem_map.mp (htypes ▸ List.mem_map_of_mem hq)
    exact ⟨p, hp, beq_iff_eq.mpr htype⟩
  · have hbasis' : b.isBasis = true := by rwa [isBasis, ← hkind]
    rw [rules_of_isConstraint (isConstraint_of_isBasis hbasis), rules_of_isConstraint (isConstraint_of_isBasis hbasis')]
    exact List.forall_mem_singleton.mpr ⟨a, List.mem_singleton_self a, h⟩

omit hb in
/-- The rules of an intersection in a regular space are settled, and of different types. -/
theorem settled_rules {basis : Option Node} {constraints : List Node} (hc : a.content = .intersection basis constraints) :
    Settled basis constraints ∧ a.rules = basis.toList ++ constraints ∧ (constraints.map typeId).Nodup := by
  have hsound := (hvalid.written a ha.holds).sound
  rw [hc] at hsound
  have hrules : a.rules = basis.toList ++ constraints := by rw [Node.rules, hc]
  have hareRules := (ha.rules hvalid hregular).areRules
  rw [hrules] at hareRules
  refine ⟨hsound, hrules, List.pairwise_map.mpr ?_⟩
  refine (List.pairwise_append.mp hareRules.beside).2.1.imp_of_mem fun {c c'} hmem hmem' hbeside => ?_
  have hmem := List.mem_append_right basis.toList hmem
  exact beq_eq_false_iff_ne.mp (hbeside.sameType_eq_false hvalid (hareRules.calm c hmem).holds
    (hareRules.calm c' (List.mem_append_right _ hmem')).holds (hareRules.areConstraints c hmem))

/-- The rules of an intersection are not of the same types as a basis alone. -/
theorem not_rules_of_basis (hkind : a.kind = .intersection) (hbasis : b.isBasis = true)
    (h : ∀ q ∈ b.rules, ∃ p ∈ a.rules, p.sameType q = true)
    (h' : ∀ p ∈ a.rules, ∃ q ∈ b.rules, q.sameType p = true) : False := by
  obtain ⟨basis, constraints, hc⟩ := intersection_of_kind hkind
  obtain ⟨hsettled, hrules, -⟩ := settled_rules hvalid hregular ha hc
  have hareRules := (ha.rules hvalid hregular).areRules
  rw [rules_of_isConstraint (isConstraint_of_isBasis hbasis), hrules] at h h'
  rw [hrules] at hareRules
  have hnil : constraints = [] := by
    refine List.eq_nil_iff_forall_not_mem.mpr fun c hmem => ?_
    have hmem' := List.mem_append_right basis.toList hmem
    obtain ⟨q, hq, hsame⟩ := h' c hmem'
    obtain rfl := List.mem_singleton.mp hq
    have hsameKind := hvalid.kind_eq hb.holds (hareRules.calm c hmem').holds hsame
    have hrefinement := (kind_of_isRefinement (hsettled.areRefinements c hmem)).2.1
    rw [isBasis, ← hsameKind, ← isBasis, hbasis] at hrefinement
    cases hrefinement
  obtain ⟨p, hp, -⟩ := h b (List.mem_singleton_self b)
  rw [hnil, hsettled.notAlone hnil] at hp
  cases hp

/-- Roots whose rules are of the same types are of one type. -/
theorem sameType_of_rules (h : ∀ q ∈ b.rules, ∃ p ∈ a.rules, p.sameType q = true)
    (h' : ∀ p ∈ a.rules, ∃ q ∈ b.rules, q.sameType p = true) : a.sameType b = true := by
  rcases ha.kind_cases hregular with hkind | hbasis <;> rcases hb.kind_cases hregular with hkind' | hbasis'
  · obtain ⟨basis, constraints, hc⟩ := intersection_of_kind hkind
    obtain ⟨basis', constraints', hc'⟩ := intersection_of_kind hkind'
    obtain ⟨hsettled, hrules, hnodup⟩ := settled_rules hvalid hregular ha hc
    obtain ⟨hsettled', hrules', hnodup'⟩ := settled_rules hvalid hregular hb hc'
    have hheld (e : Node) (he : e ∈ basis.toList ++ constraints) : space.Holds e :=
      ((ha.rules hvalid hregular).areRules.calm e (hrules ▸ he)).holds
    have hheld' (e : Node) (he : e ∈ basis'.toList ++ constraints') : space.Holds e :=
      ((hb.rules hvalid hregular).areRules.calm e (hrules' ▸ he)).holds
    rw [hrules, hrules'] at h h'
    -- A basis is of the type of a basis, and a refinement of the type of a refinement.
    have hpart {b b' : Option Node} {cs cs' : List Node} (hsettled : Settled b cs) (hsettled' : Settled b' cs')
        (hheld : ∀ e ∈ b.toList ++ cs, space.Holds e) (hheld' : ∀ e ∈ b'.toList ++ cs', space.Holds e)
        (h : ∀ q ∈ b'.toList ++ cs', ∃ p ∈ b.toList ++ cs, p.sameType q = true) :
        (∀ q ∈ b', ∃ p ∈ b, p.sameType q = true) ∧ ∀ q ∈ cs', ∃ p ∈ cs, p.sameType q = true := by
      have hrefinement {e : Node} (he : e ∈ cs) := (kind_of_isRefinement (hsettled.areRefinements e he)).2.1
      have hrefinement' {e : Node} (he : e ∈ cs') := (kind_of_isRefinement (hsettled'.areRefinements e he)).2.1
      constructor <;> intro q hq
      · have hq' := List.mem_append_left cs' (Option.mem_toList.mpr hq)
        obtain ⟨p, hp, hsame⟩ := h q hq'
        have hsameKind := hvalid.kind_eq (hheld p hp) (hheld' q hq') hsame
        refine ⟨p, Option.mem_toList.mp ((List.mem_append.mp hp).resolve_right fun hc => ?_), hsame⟩
        have hbasis := hsettled'.isBasis q hq
        rw [isBasis, ← hsameKind, ← isBasis, hrefinement hc] at hbasis
        cases hbasis
      · have hq' := List.mem_append_right b'.toList hq
        obtain ⟨p, hp, hsame⟩ := h q hq'
        have hsameKind := hvalid.kind_eq (hheld p hp) (hheld' q hq') hsame
        refine ⟨p, (List.mem_append.mp hp).resolve_left fun hb => ?_, hsame⟩
        have hbasis := hsettled.isBasis p (Option.mem_toList.mp hb)
        rw [isBasis, hsameKind, ← isBasis, hrefinement' hq] at hbasis
        cases hbasis
    obtain ⟨hbases, hconstraints⟩ := hpart hsettled hsettled' hheld hheld' h
    obtain ⟨hbases', hconstraints'⟩ := hpart hsettled' hsettled hheld' hheld h'
    refine sameType_of_related hvalid hregular ha.holds hb.holds ?_
    rw [hc, hc']
    refine .intersection ?_ ?_
    · cases basis with
      | none =>
          cases basis' with
          | none => exact .none
          | some q =>
              obtain ⟨p, hp, -⟩ := hbases q rfl
              cases hp
      | some p =>
          obtain ⟨q, hq, hsame⟩ := hbases' p rfl
          obtain rfl := Option.mem_def.mp hq
          exact .some ⟨hheld p (by simp), hheld' q (by simp), (eq_of_beq hsame).symm⟩
    · exact constraints_of_types hvalid (fun c hmem => hheld c (List.mem_append_right _ hmem))
        (fun c hmem => hheld' c (List.mem_append_right _ hmem)) hnodup hnodup' hsettled.sorted hsettled'.sorted
        hconstraints hconstraints'
  · exact (not_rules_of_basis hvalid hregular ha hb hkind hbasis' h h').elim
  · exact (not_rules_of_basis hvalid hregular hb ha hkind' hbasis h' h).elim
  · rw [rules_of_isConstraint (isConstraint_of_isBasis hbasis), rules_of_isConstraint (isConstraint_of_isBasis hbasis')] at h
    obtain ⟨p, hp, hsame⟩ := h b (List.mem_singleton_self b)
    exact List.mem_singleton.mp hp ▸ hsame

end

/-- Entailment orders the types of simple roots. -/
theorem entails_orders (hblind : BlindToSign) (hvalid : space.Valid) (hregular : space.Regular) (depth : Nat) :
    Orders (Entails depth) depth space := by
  induction depth with
  | zero =>
      have hnone {n : Node} (h : n.SimpleRoot 0 space) : False := Nat.not_lt_zero _ (h.shallow hregular)
      exact ⟨fun _ _ ha => (hnone ha).elim, fun _ _ _ ha => (hnone ha).elim, fun _ _ ha => (hnone ha).elim,
        fun _ _ ha => (hnone ha).elim⟩
  | succ depth ih =>
      have hrules {n : Node} (h : n.SimpleRoot (depth + 1) space) := h.rules hvalid hregular
      have hsimple {n : Node} (h : n.SimpleRoot (depth + 1) space) : ∀ e ∈ n.rules, e.Simple (depth + 1) space :=
        fun _ => (hrules h).rule
      refine ⟨fun a b ha hb h => ?alike, fun a b c ha hb hc h h' => ?trans, fun a b ha hb h v hv => ?sound,
        fun a b ha hb h h' => ?antisymm⟩
      case alike =>
        exact support_of_types hvalid hregular ih (hsimple ha)
          (fun q hq => ⟨hsimple hb q hq, (hrules hb).areRules.areConstraints q hq⟩)
          (rules_of_sameType hvalid hregular ha hb h)
      case trans => exact Support.trans hblind hvalid hregular ih (hsimple ha) (hsimple hb) (hsimple hc) h h'
      case sound =>
        rw [← everyAllows_rules hvalid ha.holds, Discriminant.everyAllows_iff] at hv
        rw [← everyAllows_rules hvalid hb.holds, Discriminant.everyAllows_iff]
        intro q hq
        obtain ⟨p, hp, hpq⟩ := h q hq
        exact hpq.sound hblind hvalid hregular ih (hsimple ha p hp) (hsimple hb q hq) (hv p hp)
      case antisymm =>
        exact sameType_of_rules hvalid hregular ha hb
          (types_of_support hblind hvalid hregular ih (hrules ha) (hrules hb) h h')
          (types_of_support hblind hvalid hregular ih (hrules hb) (hrules ha) h' h)

end Node

end SchemaAlgebra
