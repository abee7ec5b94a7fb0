-- SUMMARY: What divisors say about numbers, from the literal that is written to the conjunction of two of them.
import SchemaAlgebra.Proofs.LiteralText
import SchemaAlgebra.Proofs.SideBySide
import SchemaAlgebra.Proofs.Reachable
import SchemaAlgebra.Stock

/-!
# Multiples

Divisors are natural numbers of 64 bits, and numbers are tested after rounding them
to doubles. In regular spaces neither shows: what is read of a literal allows the
numbers whose exact values are multiples of the literal's, and the conjunction of two
such nodes, which always exists, allows the multiples of both.
-/

namespace SchemaAlgebra

open SpaceM (Ensures)

-- ---------------------------------------------------------------------------
-- Numbers
-- ---------------------------------------------------------------------------

namespace Number

/-- A finite number is a multiple of another if its exact value is. -/
def MultipleOf (x n : Number) : Prop :=
  x.isFinite = true ∧ ∃ units step, x.scaled? = some units ∧ n.scaled? = some step ∧ step ∣ units

theorem dvd_signed {step : Int} {negative : Bool} {units : Nat} : step ∣ signed negative units ↔ step ∣ units := by
  cases negative
  · exact Iff.rfl
  · exact Int.dvd_neg

/-- Where a divisor is exact, the test is for multiples of the number that it stands for. -/
theorem isMultipleOf_iff_multipleOf {n : Number} {i : Int} (hn : n.toInt? = some i) (hpos : 1 ≤ i)
    (hexact : i.toNat ≤ 2 ^ 53) (x : Number) : x.isMultipleOf i.toNat = true ↔ x.MultipleOf n := by
  have hstep : n.scaled? = some ((i.toNat * unitsPerOne : Nat) : Int) := by
    rw [Literal.scaled?_of_toInt? hn, Int.natCast_mul, Int.toNat_of_nonneg (by omega)]
  rw [isMultipleOf_iff hexact]
  constructor
  · rintro ⟨negative, magnitude, rfl, hdvd⟩
    exact ⟨rfl, _, _, rfl, hstep, dvd_signed.mpr (Int.natCast_dvd_natCast.mpr hdvd)⟩
  · rintro ⟨hfinite, units, step, hunits, hstep', hdvd⟩
    cases x with
    | finite negative magnitude =>
        cases hunits
        cases hstep.symm.trans hstep'
        exact ⟨negative, magnitude, rfl, Int.natCast_dvd_natCast.mp (dvd_signed.mp hdvd)⟩
    | _ => cases hfinite

end Number

-- ---------------------------------------------------------------------------
-- Reading
-- ---------------------------------------------------------------------------

/-- A text without a point is no reference, whatever references begin with. -/
theorem Registry.nameIn?_of_no_point {registry : Registry} {text : String} (h : '.' ∉ text.toList) :
    registry.nameIn? text = none := by
  unfold nameIn?
  split
  · rename_i name hname
    have htext := List.isPrefixOf?_eq_some_iff_append_eq.mp hname
    exact absurd (htext ▸ List.mem_append_right _ List.mem_cons_self) h
  · rfl

namespace Definition

/-- The entries of the definition of the numbers that are multiples of another. -/
def multipleEntries (n : Number) : Entries := [("basis", .string "number"), ("divisor", .number n)]

def multiplesOf (n : Number) : Definition := .map (multipleEntries n)

variable [Behaviour] {ground : Prop} {space : Space}

omit [Behaviour] in
theorem refinementsOf_none {read : Kind → SpaceM (List Node)} {kinds : List Kind}
    (h : ∀ kind ∈ kinds, read kind = pure []) : refinementsOf read kinds = pure [] := by
  induction kinds with
  | nil => rfl
  | cons kind rest ih =>
      obtain ⟨hfirst, hrest⟩ := List.forall_mem_cons.mp h
      rw [refinementsOf, hfirst, pure_bind, ih hrest]
      rfl

/-- There is one refinement, whatever the axis of plain bounds. -/
theorem refinementsOf_multiples (n : Number) (axis : BoundAxis) :
    refinementsOf (fun kind => refinementsAt kind axis (multipleEntries n)) Kind.refinements =
      (do return [← readDivisor (.number n)]) := by
  have hrest : refinementsOf (fun kind => refinementsAt kind axis (multipleEntries n))
      [.max, .min, .pattern, .predicate, .required, .optional] = pure [] := by
    refine refinementsOf_none ?_
    simp only [List.forall_mem_cons]
    exact ⟨rfl, rfl, rfl, rfl, rfl, rfl, List.forall_mem_nil _⟩
  have hfirst : refinementsAt .divisor axis (multipleEntries n) = (do return [← readDivisor (.number n)]) := rfl
  rw [Kind.refinements, refinementsOf, hrest, hfirst]
  simp only [bind_assoc, pure_bind, List.append_nil]

/-- The name of a domain is no reference to a registered thing. -/
theorem readNumbers_spec (hvalid : space.Valid) :
    Ensures ground False space (readRoot (.string "number")) fun later basis =>
      later.Holds basis ∧ basis.content = .domain .number := by
  unfold readRoot readRootName
  refine (registry_spec space hvalid (.refl space)).bind fun later current hvalid' _ _ => ?_
  have hname : current.isReference "number" = false := by
    rw [Registry.isReference, Registry.nameIn?_of_no_point (by decide), Option.isSome_none]
  rw [hname]
  have hready : (Content.domain .number : Content Node).Ready ground later .none :=
    ⟨trivial, trivial, List.forall_mem_nil _, fun _ _ => trivial⟩
  exact (Ensures.intern hvalid' hready).imp fun _ _ _ _ hbasis =>
    ⟨hbasis.holds, Content.eq_domain_of_outline hbasis.outline⟩

theorem basisOf_multiples (n : Number) (hvalid : space.Valid) :
    Ensures ground False space (basisOf (multipleEntries n) (rootAt "basis" (multipleEntries n)) none basisKeys)
      fun later found => ∃ basis, found = some basis ∧ later.Holds basis ∧ basis.content = .domain .number := by
  have hlookup : (multipleEntries n).lookup "basis" = some (.string "number") := rfl
  have hread : rootAt "basis" (multipleEntries n) = (do return some (← readRoot (.string "number"))) := rfl
  have hrest (readBasis : SpaceM (Option Node)) (basis : Node) :
      basisOf (multipleEntries n) readBasis (some basis) ["domain", "unit", "proto"] = pure (some basis) := rfl
  unfold basisKeys basisOf
  simp only [hlookup, hread, Option.isSome_none, Bool.false_eq_true, if_false, pure_bind, bind_assoc]
  refine (readNumbers_spec hvalid).bind fun later basis hvalid' _ hbasis => ?_
  rw [if_pos (by rw [Node.isBasis, Node.kind, hbasis.2]; rfl), hrest]
  exact .pure hvalid' ⟨basis, rfl, hbasis⟩

omit [Behaviour] in
theorem readLiteralDivisor_spec (n : Number) (hvalid : space.Valid) :
    Ensures ground False space (readDivisor (.number n)) fun later refinement => later.Holds refinement ∧
      ∃ i, n.toInt? = some i ∧ 1 ≤ i ∧ refinement.content = .divisor (Nat.min i.toNat (Nat.pow 2 64 - 1)) := by
  unfold readDivisor
  refine (divisorOf_spec n space hvalid (.refl space)).bind ?_
  rintro later d hvalid' - ⟨hpositive, hfits, i, hn, hpos, rfl⟩
  have hready : (Content.divisor (Nat.min i.toNat (Nat.pow 2 64 - 1)) : Content Node).Ready ground later .none :=
    ⟨hpositive, hfits, List.forall_mem_nil _, fun _ _ => trivial⟩
  exact (Ensures.intern hvalid' hready).imp fun _ _ _ _ h =>
    ⟨h.holds, i, hn, hpos, Content.eq_divisor_of_outline h.outline⟩

end Definition

-- ---------------------------------------------------------------------------
-- Divisors next to a basis
-- ---------------------------------------------------------------------------

namespace Node

open Definition (multiplesOf multipleEntries refinementsOf_multiples basisOf_multiples readLiteralDivisor_spec)

section

variable {basis : Node} {divisors : List Node}

/-- Divisors that stand side by side leave nothing to merge next to the domain of numbers. -/
theorem sideBySide_divisors (hdomain : basis.content = .domain .number)
    (hdivisors : ∀ c ∈ divisors, ∃ d, c.content = .divisor d) (hne : divisors ≠ [])
    (hbeside : divisors.Pairwise (Beside false)) : SideBySide basis divisors where
  isBasis := by rw [isBasis, kind, hdomain]; rfl
  areRefinements := by
    intro c hc
    obtain ⟨d, hd⟩ := hdivisors c hc
    rw [isRefinement, kind, hd]
    rfl
  ne_nil := hne
  beside := by
    refine List.pairwise_cons.mpr ⟨fun c hc => ?_, hbeside⟩
    obtain ⟨d, hd⟩ := hdivisors c hc
    refine beside_of_slots (by rw [kind, hdomain]; rintro ⟨⟩) (by rw [kind, hd]; rintro ⟨⟩) (fun slot hs hs' => ?_)
      (not_clash_of_kind (by rw [kind, hd]; rintro ⟨⟩) (by rw [kind, hd]; rintro ⟨⟩))
    rw [slot?, hdomain] at hs
    rw [slot?, hd] at hs'
    cases hs
    cases hs'
  applicable := by
    intro c hc
    obtain ⟨d, hd⟩ := hdivisors c hc
    refine applicabilityError?_eq_none.mpr ⟨.divisor, by rw [slot?, hd]; rfl, ?_⟩
    rw [Slot.Suits, Option.bind_some, basisDomain?, hdomain]

/-- The numbers that a divisor of a space divides, by their rules. -/
structure Divides (space : Space) (d : Nat) (basis divisor : Node) : Prop where
  holdsBasis : space.Holds basis
  domain : basis.content = .domain .number
  holds : space.Holds divisor
  content : divisor.content = .divisor d

variable {space later : Space} {d : Nat} {divisor : Node}

theorem Divides.extends (h : Divides space d basis divisor) (hext : later.Extends space) : Divides later d basis divisor :=
  ⟨hext.holds basis h.holdsBasis, h.domain, hext.holds divisor h.holds, h.content⟩

theorem Divides.holdsAll (h : Divides space d basis divisor) : ∀ e ∈ [basis, divisor], space.Holds e :=
  List.forall_mem_cons.mpr ⟨h.holdsBasis, List.forall_mem_singleton.mpr h.holds⟩

theorem Divides.sideBySide (h : Divides space d basis divisor) : SideBySide basis [divisor] :=
  sideBySide_divisors h.domain (List.forall_mem_singleton.mpr ⟨d, h.content⟩) (List.cons_ne_nil _ _)
    (List.pairwise_singleton _ _)

theorem Divides.apart (h : Divides space d basis divisor) (hvalid : space.Valid) :
    basis.sameType divisor = false ∧ ¬ (basis.kind = .divisor ∧ divisor.kind = .divisor) := by
  have hkind : basis.kind = .domain := by rw [kind, h.domain]; rfl
  have hkind' : divisor.kind = .divisor := by rw [kind, h.content]; rfl
  refine ⟨Bool.eq_false_iff.mpr fun hsame => ?_, by rw [hkind]; rintro ⟨⟨⟩, -⟩⟩
  have heq := hvalid.kind_eq h.holdsBasis h.holds hsame
  rw [hkind, hkind'] at heq
  cases heq

end

variable [Behaviour] {ground safe : Prop} {space : Space} {meet : Meet} {b p b' q : Node} {d e : Nat}

theorem Divides.orthogonal (h : Divides space d b p) (hvalid : space.Valid) :
    meetRules meet b p = pure .orthogonal ∧ meetRules meet p b = pure .orthogonal := by
  have hside := h.sideBySide
  have hbeside := (List.pairwise_cons.mp hside.beside).1 p List.mem_cons_self
  have hconstraint := hside.areConstraints
  obtain ⟨hb, hp⟩ := List.forall_mem_cons.mp hconstraint
  have hp := hp p List.mem_cons_self
  obtain ⟨hsame, hdivisors⟩ := h.apart hvalid
  refine ⟨meetRules_eq_orthogonal hbeside hdivisors hsame hb hp, ?_⟩
  exact meetRules_eq_orthogonal hbeside.symm (fun hboth => hdivisors hboth.symm) ((sameType_comm p b).trans hsame) hp hb

-- ---------------------------------------------------------------------------
-- Two divisors
-- ---------------------------------------------------------------------------

/-- What two divisors come to: a divisor that allows what both allow. They can stay side by side, but not in a regular
space. -/
def DivisorsMet (p q : Node) (space : Space) : Intersected → Prop
  | .node n => space.Holds n ∧ (∃ d, n.content = .divisor d) ∧
      (space.Regular → ∀ v, n.allows v = (p.allows v && q.allows v))
  | .disjoint _ => False
  | .orthogonal => p.Beside false q ∧ ¬ space.Regular

theorem meetDivisors_met (hvalid : space.Valid) (hp : space.Holds p) (hq : space.Holds q) (hpc : p.content = .divisor d)
    (hqc : q.content = .divisor e) :
    Ensures ground safe space (meetDivisors p q d e) fun later out => DivisorsMet p q later out := by
  rw [meetDivisors_eq (divisor_fits hvalid hp hpc) (divisor_fits hvalid hq hqc)]
  refine (Ensures.note hvalid).bind fun later _ hlater hext hnoted => ?_
  have hp := hext.holds p hp
  have hq := hext.holds q hq
  have hmultiple {final : Space} (hfinal : final.Valid) (hext' : final.Extends later) {n : Node} (hn : final.Holds n)
      (hc : n.content = .divisor (leastCommonMultiple d e)) : DivisorsMet p q final (.node n) := by
    refine ⟨hn, ⟨_, hc⟩, fun hregular v => ?_⟩
    rw [← allows_multiple hfinal hregular (hext'.holds p hp) (hext'.holds q hq) hpc hqc (hext'.trace _ hnoted),
      hfinal.allows hn, hc]
    rfl
  cases hfound : leastCommonMultiple? d e with
  | none =>
      refine .pure hlater ⟨beside_of_overflow hpc hqc hfound, fun hregular => ?_⟩
      have hbound := hregular.multiples _ hnoted
      rw [leastCommonMultiple_eq] at hbound
      exact absurd (hbound.trans (by decide)) (Nat.not_le.mpr (leastCommonMultiple?_eq_none.mp hfound))
  | some multiple =>
      obtain ⟨rfl, hlt⟩ := leastCommonMultiple?_eq_some hfound
      dsimp only
      split
      · rename_i heq
        exact .pure hlater (hmultiple hlater (.refl later) hp (hpc.trans (congrArg _ heq.symm)))
      split
      · rename_i heq
        exact .pure hlater (hmultiple hlater (.refl later) hq (hqc.trans (congrArg _ heq.symm)))
      have hready : (Content.divisor (leastCommonMultiple d e)).Ready ground later .none :=
        ⟨multiple_pos hlater hp hq hpc hqc, hlt, List.forall_mem_nil _, fun _ _ => trivial⟩
      refine (Ensures.intern hlater hready).bind fun final n hfinal hext' hinterned => .pure hfinal ?_
      exact hmultiple hfinal hext' hinterned.holds (Content.eq_divisor_of_outline hinterned.outline)

theorem meetRules_divisors (hvalid : space.Valid) (hp : space.Holds p) (hq : space.Holds q) (hpc : p.content = .divisor d)
    (hqc : q.content = .divisor e) :
    Ensures ground safe space (meetRules meet p q) fun later out => DivisorsMet p q later out := by
  unfold meetRules meetBy
  split
  · rename_i hsame
    refine .pure hvalid ⟨hp, ⟨d, hpc⟩, fun hregular v => ?_⟩
    rw [← hvalid.allows_eq hregular hp hq hsame, Bool.and_self]
  · have horder : ¬ q.kind.order < p.kind.order := by
      rw [kind, kind, hpc, hqc]
      exact Nat.lt_irrefl _
    rw [if_neg horder]
    simp only [meetConstraints, hpc, hqc]
    exact meetDivisors_met hvalid hp hq hpc hqc

-- ---------------------------------------------------------------------------
-- Folding two bases with a refinement each
-- ---------------------------------------------------------------------------

/-- A basis and a refinement, and another basis of the same type with a refinement: only the refinements meet. -/
theorem addRules_pair (hareConstraints : ∀ e ∈ [b, p, b', q], e.kind.isConstraint = true) (hsame : b.sameType b' = true)
    (hbp : meetRules meet b p = pure .orthogonal) (hpb : meetRules meet p b' = pure .orthogonal)
    (hbq : meetRules meet b q = pure .orthogonal) : addRules meet [] [b, p, b', q] = do
      match ← meetRules meet p q with
      | .orthogonal => return .ok [b, p, q]
      | .disjoint d => return .error d
      | .node n => return .ok [b, n] := by
  simp only [List.forall_mem_cons] at hareConstraints
  obtain ⟨hb, hp, hb', hq, -⟩ := hareConstraints
  have hbb : meetRules meet b b' = pure (.node b) := by
    rw [meetRules, meetBy, if_pos hsame]
  simp only [addRules, addRule, if_pos hb, if_pos hp, if_pos hb', if_pos hq, foldInto, hbp, hbb, hpb, hbq, pure_bind,
    Option.isSome_none, Option.isSome_some, if_true, Bool.false_eq_true, if_false, Except.map, bind_assoc]
  refine bind_congr fun out => ?_
  cases out <;> rfl

/-- The rules of two divisors next to numbers come to one divisor, which allows what both allow, wherever the space is
still regular. -/
theorem addRules_divides (hvalid : space.Valid) (h : Divides space d b p) (h' : Divides space e b' q) :
    Ensures ground safe space (addRules meet [] [b, p, b', q]) fun later out => ∃ divisors, out = .ok (b :: divisors) ∧
      SideBySide b divisors ∧ (∀ c ∈ b :: divisors, later.Holds c) ∧
        (later.Regular → ∃ n, divisors = [n] ∧ ∀ v, n.allows v = (p.allows v && q.allows v)) := by
  have hcrossed : Divides space e b q := ⟨h.holdsBasis, h.domain, h'.holds, h'.content⟩
  have hcrossed' : Divides space d b' p := ⟨h'.holdsBasis, h'.domain, h.holds, h.content⟩
  have hareConstraints : ∀ c ∈ [b, p, b', q], c.kind.isConstraint = true :=
    List.forall_mem_append.mpr ⟨h.sideBySide.areConstraints, h'.sideBySide.areConstraints⟩
  rw [addRules_pair hareConstraints (hvalid.sameType_of_content h.holdsBasis h'.holdsBasis (h.domain.trans h'.domain.symm))
    (h.orthogonal hvalid).1 (hcrossed'.orthogonal hvalid).2 (hcrossed.orthogonal hvalid).1]
  refine (meetRules_divisors hvalid h.holds h'.holds h.content h'.content).bind ?_
  intro later out hlater hext hout
  have hbHeld := hext.holds b h.holdsBasis
  cases out with
  | node n =>
      obtain ⟨hn, ⟨multiple, hc⟩, hallows⟩ := hout
      have hnew : Divides later multiple b n := ⟨hbHeld, h.domain, hn, hc⟩
      exact .pure hlater ⟨[n], rfl, hnew.sideBySide, hnew.holdsAll, fun hregular => ⟨n, rfl, hallows hregular⟩⟩
  | disjoint d => exact hout.elim
  | orthogonal =>
      obtain ⟨hbeside, hirregular⟩ := hout
      have hdivisors : ∀ c ∈ [p, q], ∃ d, c.content = .divisor d :=
        List.forall_mem_cons.mpr ⟨⟨d, h.content⟩, List.forall_mem_singleton.mpr ⟨e, h'.content⟩⟩
      have hholds : ∀ c ∈ [b, p, q], later.Holds c :=
        List.forall_mem_cons.mpr ⟨hbHeld, List.forall_mem_cons.mpr
          ⟨hext.holds p h.holds, List.forall_mem_singleton.mpr (hext.holds q h'.holds)⟩⟩
      refine .pure hlater ⟨[p, q], rfl, ?_, hholds, fun hregular => absurd hregular hirregular⟩
      exact sideBySide_divisors h.domain hdivisors (List.cons_ne_nil _ _) (List.pairwise_pair.mpr hbeside)

-- ---------------------------------------------------------------------------
-- Multiples
-- ---------------------------------------------------------------------------

variable {l r : Node}

/-- A node that is the intersection of the numbers with a divisor. -/
def IsMultiples (d : Nat) (space : Space) (node : Node) : Prop :=
  space.Holds node ∧ ∃ basis divisor, node.content = .intersection (some basis) [divisor] ∧ Divides space d basis divisor

omit [Behaviour] in
theorem IsMultiples.extends {later : Space} {node : Node} (h : node.IsMultiples d space) (hext : later.Extends space) :
    node.IsMultiples d later := by
  obtain ⟨hnode, basis, divisor, hc, hdivides⟩ := h
  exact ⟨hext.holds node hnode, basis, divisor, hc, hdivides.extends hext⟩

omit [Behaviour] in
/-- What is interned next to one rule is the intersection with this rule. -/
theorem content_of_interned {n : Node} (h : space.Interned (.intersection (some b) [p]) n) (hregular : space.Regular) :
    n.content = .intersection (some b) [p] := by
  have hsame := h.same (List.pairwise_singleton _ _) (hregular.exact n h.holds)
  have hkind : n.content.kind = .intersection := Content.kind_eq_of_outline h.outline
  cases hc : n.content with
  | intersection basis constraints =>
      rw [hc] at hsame
      exact hsame
  | _ => rw [hc] at hkind; cases hkind

theorem allows_of_divides {n : Node} (hvalid : space.Valid) (hn : space.Holds n)
    (hc : n.content = .intersection (some b) [p]) (v : Value) : n.allows v = (b.allows v && p.allows v) := by
  rw [hvalid.allows hn, hc]
  simp only [Content.allows, basisAllows, everyAllows, Bool.and_true]

omit [Behaviour] in
theorem sortConstraints_singleton (c : Node) : sortConstraints [c] = [c] :=
  List.perm_singleton.mp (sortConstraints_perm [c])

/-- An outcome is a node, which allows what both allow wherever the space is regular. -/
def AllowsBoth (l r : Node) (space : Space) (out : Intersected) : Prop :=
  ∃ n, out = .node n ∧ space.Holds n ∧ (space.Regular → ∀ v, n.allows v = (l.allows v && r.allows v))

theorem combineBy_multiples (hvalid : space.Valid) (hl : l.IsMultiples d space) (hr : r.IsMultiples e space) :
    Ensures ground safe space (combineBy meet [l, r]) fun later out => AllowsBoth l r later out := by
  obtain ⟨hlHeld, b, p, hlc, hb⟩ := hl
  obtain ⟨hrHeld, b', q, hrc, hb'⟩ := hr
  have hrules : [l, r].flatMap rules = [b, p, b', q] := by
    simp [rules, hlc, hrc]
  unfold combineBy
  rw [hrules]
  refine (addRules_divides hvalid hb hb').bind ?_
  rintro first _ hfirst hext ⟨divisors, rfl, hside, hholds, hdivisors⟩
  dsimp only
  refine (hside.finish_spec hfirst hholds).bind ?_
  rintro later _ hlater hext' ⟨n, rfl, hinterned⟩
  refine .pure hlater ⟨n, rfl, hinterned.holds, fun hregular v => ?_⟩
  obtain ⟨c, rfl, hc⟩ := hdivisors (hregular.earlier hext')
  rw [sortConstraints_singleton] at hinterned
  have hsame : b.allows v = b'.allows v := by
    rw [hvalid.allows hb.holdsBasis, hvalid.allows hb'.holdsBasis, hb.domain, hb'.domain]
  have hcontent := content_of_interned hinterned hregular
  rw [allows_of_divides hlater hinterned.holds hcontent, hc, allows_of_divides hvalid hlHeld hlc,
    allows_of_divides hvalid hrHeld hrc, ← hsame]
  cases b.allows v <;> simp

theorem meetIntersections_multiples (hvalid : space.Valid) (hl : l.IsMultiples d space) (hr : r.IsMultiples e space) :
    Ensures ground safe space (meetIntersections meet l r) fun later out => AllowsBoth l r later out := by
  have hcombine := @combineBy_multiples _ ground safe space meet d e l r hvalid hl hr
  obtain ⟨hlHeld, b, p, hlc, -⟩ := hl
  simp only [meetIntersections, hlc]
  refine hcombine.bind ?_
  rintro later _ hlater hext ⟨n, rfl, hn, hallows⟩
  dsimp only
  split
  · rename_i hsame
    refine .pure hlater ⟨l, rfl, hext.holds l hlHeld, fun hregular v => ?_⟩
    exact (hlater.allows_eq hregular hn (hext.holds l hlHeld) hsame v).symm.trans (hallows hregular v)
  · exact .pure hlater ⟨n, rfl, hn, hallows⟩

theorem conjoinHere_multiples (hvalid : space.Valid) (hl : l.IsMultiples d space) (hr : r.IsMultiples e space) :
    Ensures ground safe space (conjoinHere l r) fun later out => AllowsBoth l r later out := by
  have hmeets := @meetIntersections_multiples _ ground safe space (conjoinWithin (Nat.max l.nesting r.nesting)) d e l r
    hvalid hl hr
  obtain ⟨hlHeld, _, _, hlc, -⟩ := hl
  obtain ⟨hrHeld, _, _, hrc, -⟩ := hr
  have horder : ¬ r.kind.order < l.kind.order := by
    rw [kind, kind, hlc, hrc]
    exact Nat.lt_irrefl _
  have hrule {meet : Meet} : meetUnions meet l r = meetIntersections meet l r := by
    simp only [meetUnions, meetMorphs, hlc]
  have hrules : Ensures ground safe space (meetBy (meetUnions (conjoinWithin (Nat.max l.nesting r.nesting))) l r)
      fun later out => AllowsBoth l r later out := by
    rw [meetBy, if_neg horder, hrule]
    split
    · rename_i hsame
      refine .pure hvalid ⟨l, rfl, hlHeld, fun hregular v => ?_⟩
      rw [← hvalid.allows_eq hregular hlHeld hrHeld hsame, Bool.and_self]
    · exact hmeets
  refine hrules.bind ?_
  rintro later _ hlater - ⟨n, rfl, hallows⟩
  exact .pure hlater ⟨n, rfl, hallows⟩

/-- Conjoining multiples of two numbers is no conflict, and gives what both allow where the space is still regular. -/
theorem and_multiples (hvalid : space.Valid) (hl : l.IsMultiples d space) (hr : r.IsMultiples e space) :
    Ensures ground safe space (and l r) fun later n =>
      later.Regular → ∀ v, n.allows v = (l.allows v && r.allows v) := by
  have hconjoin : Ensures ground safe space (conjoin l r) fun later out => AllowsBoth l r later out := by
    refine (adopt_spec hvalid (.inl hr.1)).bind ?_
    rintro later adopted hlater hext ⟨-, -, hsame⟩
    rw [hsame hr.1]
    exact conjoinHere_multiples hlater (hl.extends hext) (hr.extends hext)
  refine hconjoin.bind ?_
  rintro later _ hlater - ⟨n, rfl, -, hallows⟩
  exact .pure hlater hallows

-- ---------------------------------------------------------------------------
-- Multiples of literals
-- ---------------------------------------------------------------------------

/-- What the multiples of a literal are read as: in a regular space, the numbers with the divisor of the literal. -/
structure IsMultiplesOf (n : Number) (space : Space) (node : Node) : Prop where
  holds : space.Holds node
  read : ∃ i, n.toInt? = some i ∧ 1 ≤ i ∧ (space.Regular → node.IsMultiples (Nat.min i.toNat (Nat.pow 2 64 - 1)) space)

variable {n m : Number}

omit [Behaviour] in
theorem IsMultiplesOf.extends {later : Space} {node : Node} (h : node.IsMultiplesOf n space) (hext : later.Extends space) :
    node.IsMultiplesOf n later := by
  obtain ⟨hnode, i, hn, hpos, hmultiples⟩ := h
  exact ⟨hext.holds node hnode, i, hn, hpos, fun hregular => (hmultiples (hregular.earlier hext)).extends hext⟩

/-- It allows the multiples of the exact value of the literal. -/
theorem IsMultiplesOf.allows {node : Node} (h : node.IsMultiplesOf n space) (hvalid : space.Valid)
    (hregular : space.Regular) (x : Number) : node.allows (.number x) = true ↔ x.MultipleOf n := by
  obtain ⟨hnode, i, hn, hpos, hmultiples⟩ := h
  obtain ⟨-, basis, divisor, hc, hdivides⟩ := hmultiples hregular
  have hexact := hregular.exact divisor hdivides.holds
  rw [hdivides.content] at hexact
  -- The largest divisor is not exact, so nothing of the literal was cut off.
  have hsmall : i.toNat ≤ 2 ^ 53 := (min_le_iff.mp hexact).resolve_right (by decide)
  have hwhole : Nat.min i.toNat (Nat.pow 2 64 - 1) = i.toNat := Nat.min_eq_left (hsmall.trans (by decide))
  rw [allows_of_divides hvalid hnode hc, hvalid.allows hdivides.holdsBasis, hvalid.allows hdivides.holds, hdivides.domain,
    hdivides.content, hwhole, Bool.and_eq_true, ← Number.isMultipleOf_iff_multipleOf hn hpos hsmall]
  exact and_iff_right rfl

theorem ofDefinition_divides {caption : Caption} (hvalid : space.Valid) (h : Divides space d b p) :
    Ensures ground safe space (ofDefinition (some b) [p] caption) fun later n =>
      later.Holds n ∧ (later.Regular → n.IsMultiples d later) := by
  rw [h.sideBySide.ofDefinition (List.pairwise_pair.mpr (h.apart hvalid))]
  refine (Ensures.intern hvalid (h.sideBySide.ready h.holdsAll)).imp fun later n _ hext hinterned => ?_
  rw [sortConstraints_singleton] at hinterned
  exact ⟨hinterned.holds, fun hregular =>
    ⟨hinterned.holds, b, p, content_of_interned hinterned hregular, h.extends hext⟩⟩

theorem readMultiples_spec (hvalid : space.Valid) (n : Number) :
    Ensures ground False space (multiplesOf n).readRoot fun later node => node.IsMultiplesOf n later := by
  have hroot : (multiplesOf n).readRoot = Definition.intersectionOf (multipleEntries n)
      (Definition.rootAt "basis" (multipleEntries n))
      fun kind axis => Definition.refinementsAt kind axis (multipleEntries n) := rfl
  have hcheck : Definition.checkEntries .intersection (Definition.basisKeys ++ Kind.refinements.map Kind.name)
      (multipleEntries n) = pure .none := rfl
  rw [hroot, Definition.intersectionOf, hcheck, pure_bind]
  refine (basisOf_multiples n hvalid).bind ?_
  rintro first _ hfirst - ⟨basis, rfl, hbasis, hdomain⟩
  simp only [refinementsOf_multiples, bind_assoc, pure_bind]
  refine (readLiteralDivisor_spec n hfirst).bind ?_
  rintro second refinement hsecond hext ⟨hrefinement, i, hn, hpos, hdivisor⟩
  have hdivides : Divides second _ basis refinement := ⟨hext.holds basis hbasis, hdomain, hrefinement, hdivisor⟩
  exact (ofDefinition_divides hsecond hdivides).imp fun later node _ _ hread => ⟨hread.1, i, hn, hpos, hread.2⟩

/-- The literals of divisors mean what they say, whenever they are read. In a space that is regular after it, the
conjunction of what two of them are read as always succeeds and allows the common multiples, judged by exact values. -/
theorem multiples_and {adopting : Prop} {first second space : Space} {n m : Number} {l r : Node}
    (hfirst : first.Reachable adopting) (hl : ((multiplesOf n).readRoot.exec first).1 = .ok l)
    (hsecond : second.Reachable adopting) (hr : ((multiplesOf m).readRoot.exec second).1 = .ok r)
    (hspace : space.Reachable adopting) (hlater : space.Extends ((multiplesOf n).readRoot.exec first).2)
    (hlater' : space.Extends ((multiplesOf m).readRoot.exec second).2)
    (hregular : ((and l r).exec space).2.Regular) : ∃ both, ((and l r).exec space).1 = .ok both ∧
      ∀ x, both.allows (.number x) = true ↔ x.MultipleOf n ∧ x.MultipleOf m := by
  have hlMultiples := ((@readMultiples_spec _ False _ hfirst.valid n).result l hl).extends hlater
  have hrMultiples := ((@readMultiples_spec _ False _ hsecond.valid m).result r hr).extends hlater'
  have hbefore : space.Regular := by
    have hand := @and_always _ False space l r hlMultiples.holds (.inl hrMultiples.holds)
    exact hregular.earlier (hand space hspace.valid (.refl space)).extension
  obtain ⟨i, -, -, hlRead⟩ := hlMultiples.read
  obtain ⟨j, -, -, hrRead⟩ := hrMultiples.read
  have hand := @and_multiples _ True True space _ _ l r hspace.valid (hlRead hbefore) (hrRead hbefore)
  obtain ⟨both, hboth⟩ := hand.succeeds trivial hregular
  refine ⟨both, hboth, fun x => ?_⟩
  rw [hand.result both hboth hregular, Bool.and_eq_true, hlMultiples.allows hspace.valid hbefore,
    hrMultiples.allows hspace.valid hbefore]

omit [Behaviour] in
/-- Multiples of 4 and multiples of 6: what allows both, of all numbers. -/
theorem fours_and_sixes : ∃ (space : Space) (l r both : Node), @Space.Reachable Stock.behaviour False space ∧
    ((@and Stock.behaviour l r).exec space).1 = .ok both ∧ ((@and Stock.behaviour l r).exec space).2.Regular ∧
      ∀ x, @Node.allows Stock.behaviour both (.number x) = true ↔ x.MultipleOf (.ofNat 4) ∧ x.MultipleOf (.ofNat 6) := by
  let _ := Stock.behaviour
  let program : SpaceM Bool := do
    let l ← (multiplesOf (.ofNat 4)).readRoot
    let r ← (multiplesOf (.ofNat 6)).readRoot
    let _ ← and l r
    let space ← get
    return decide space.Regular
  have hyields : program.yields (.new 0 .standard) (fun b => b) = true := by
    decide +kernel
  obtain ⟨l, hl, hyields⟩ := SpaceM.yields_bind.mp hyields
  obtain ⟨r, hr, hyields⟩ := SpaceM.yields_bind.mp hyields
  obtain ⟨both, hboth, hyields⟩ := SpaceM.yields_bind.mp hyields
  rw [SpaceM.yields_get, SpaceM.yields_pure, decide_eq_true_eq] at hyields
  have hnew := @Space.Reachable.new _ False 0 .standard
  obtain ⟨hfirst, -, -⟩ := hnew.read (d := multiplesOf (.ofNat 4)) (List.forall_mem_nil _)
  obtain ⟨hsecond, hext, -⟩ := hfirst.read (d := multiplesOf (.ofNat 6)) (List.forall_mem_nil _)
  obtain ⟨both', hboth', hallows⟩ :=
    multiples_and hnew hl hfirst hr hsecond hext (.refl _) hyields
  rw [hboth] at hboth'
  cases hboth'
  exact ⟨_, l, r, both, hsecond, hboth, hyields, hallows⟩

omit [Behaviour] in
/-- Where the space is not regular afterwards, this can fail: the least common multiple of `2 ^ 53 - 1` and 5 is rounded to
a number that is no multiple of 5, but allowed. -/
theorem rounded_multiple_allowed : ∃ (n m x : Number) (both : Node),
    ((@Definition.readRoot Stock.behaviour (multiplesOf n) >>= fun l =>
      @Definition.readRoot Stock.behaviour (multiplesOf m) >>= fun r =>
        @and Stock.behaviour l r).exec (.new 0 .standard)).1 = .ok both ∧
      @Node.allows Stock.behaviour both (.number x) = true ∧ x.isFinite = true ∧ ¬ x.MultipleOf m := by
  let _ := Stock.behaviour
  let n : Number := .ofNat (2 ^ 53 - 1)
  let x : Number := .ofNat 45035996273704952
  let program : SpaceM Node :=
    (multiplesOf n).readRoot >>= fun l => (multiplesOf (.ofNat 5)).readRoot >>= fun r => and l r
  have hyields : program.yields (.new 0 .standard) (fun both => both.allows (.number x)) = true := by
    decide +kernel
  obtain ⟨both, hboth, hallows⟩ := SpaceM.yields_iff.mp hyields
  have hx : x.isFinite = true ∧ x.scaled? = some ((45035996273704952 * Number.unitsPerOne : Nat) : Int) := by
    decide +kernel
  refine ⟨n, .ofNat 5, x, both, hboth, hallows, hx.1, ?_⟩
  rintro ⟨-, units, step, hunits, hstep, hdvd⟩
  cases hx.2.symm.trans hunits
  cases (Number.scaled?_ofNat (by decide)).symm.trans hstep
  have hdvd := Nat.dvd_of_mul_dvd_mul_right Number.unitsPerOne_pos (Int.natCast_dvd_natCast.mp hdvd)
  exact absurd hdvd (by decide)

end Node

end SchemaAlgebra
