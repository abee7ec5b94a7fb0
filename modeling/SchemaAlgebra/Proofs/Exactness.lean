-- SUMMARY: What intersections say about values: exactly what both nodes allow, unless a property is optional.
import SchemaAlgebra.Proofs.Decision
import SchemaAlgebra.Proofs.Reachable
import SchemaAlgebra.Stock

/-!
# Exactness of intersections

Where neither a morph nor an optional property is reachable, intersecting two nodes
of a regular space never fails, and its outcome says which values both allow. With
optional properties a conflict is no evidence of emptiness: the values of one key
are merged as if the key had to be there. That makes no difference where each key
has a sample, a value that all optional properties under the key allow: these then
cannot conflict, on the nodes themselves, below other properties or in branches.
-/

namespace SchemaAlgebra

open SpaceM (Ensures)

/-- No stock predicate tells `0` from `-0`. -/
theorem Stock.blindToSign : @BlindToSign Stock.behaviour := by
  intro predicate v
  have hpositive : Stock.isPositive v.unsigned = Stock.isPositive v := by
    cases v <;> simp [Stock.isPositive, Value.unsigned, Number.less, Number.compareWith]
  have heven : Stock.isEven v.unsigned = Stock.isEven v := by
    cases v with
    | number n => simpa only [Stock.isEven, Number.isDivisibleBy, Value.unsigned] using
        Number.isDivisibleBy_unsigned 2 (.number n)
    | _ => rfl
  have hstring : Stock.isString v.unsigned = Stock.isString v := by
    rw [Stock.isString, Value.domain_unsigned, Stock.isString]
  have hnonEmpty : Stock.isNonEmpty v.unsigned = Stock.isNonEmpty v := by
    cases v <;> simp only [Stock.isNonEmpty, Value.unsigned, Value.length?]
  change Stock.test predicate v.unsigned = Stock.test predicate v
  unfold Stock.test
  split
  · rfl
  · exact hpositive
  · exact heven
  · exact hstring
  · exact hnonEmpty
  · rfl

namespace Node

variable [Behaviour] {space : Space}

-- ---------------------------------------------------------------------------
-- Outcomes
-- ---------------------------------------------------------------------------

/-- An outcome that says exactly which values two nodes both allow. -/
def SaysBoth (l r : Node) : Intersected → Prop
  | .node n => ∀ v, n.allows v = true ↔ l.allows v = true ∧ r.allows v = true
  | .disjoint _ => ∀ v, ¬ (l.allows v = true ∧ r.allows v = true)
  | .orthogonal => False

/-- Intersecting nodes of one space does nothing to adopt them. -/
theorem intersect_spec {safe : Safety} {l r : Node} (hblind : safe.exact → BlindToSign) (hvalid : space.Valid)
    (hl : space.Holds l) (hr : space.Holds r) (hadmitted : safe → l.Admitted safe ∧ r.Admitted safe) :
    Ensures True safe space (intersect l r) fun later out =>
      Met safe (Nat.max l.nesting r.nesting) l r later out := by
  refine (adopt_spec hvalid (.inl hr)).bind ?_
  rintro later n hvalid' hext ⟨-, -, hsame⟩
  rw [hsame hr]
  exact meetHere_spec hblind hvalid' (hext.holds l hl) (hext.holds r hr) hadmitted

/-- Intersection is exact where the optional properties in both nodes allow samples of their keys, wherever they are: two
of them under one key do not conflict. The space is to be regular also after it, since multiples may be formed on the
way. -/
theorem intersect_sampled {adopting : Prop} (hblind : BlindToSign) (hreachable : space.Reachable adopting) {l r : Node}
    {sample : PropKey → Value} (hl : space.Holds l) (hr : space.Holds r) (hlRoot : l.kind.isRefinement = false)
    (hrRoot : r.kind.isRefinement = false) (hlSampled : l.SampledBy sample) (hrSampled : r.SampledBy sample)
    (hregular : ((intersect l r).exec space).2.Regular) :
    ∃ out, ((intersect l r).exec space).1 = .ok out ∧ SaysBoth l r out := by
  have hspec := @intersect_spec _ space (.sampled sample) l r (fun _ => hblind) hreachable.valid hl hr
    fun _ => ⟨⟨hlSampled.admits, hlRoot⟩, hrSampled.admits, hrRoot⟩
  obtain ⟨out, hout⟩ := hspec.succeeds trivial hregular
  refine ⟨out, hout, ?_⟩
  have hmet := hspec.result out hout
  cases out with
  | node n =>
      have hconjunct : Conjunct (.sampled sample) _ l r _ n := hmet
      intro v
      rw [(hconjunct.allows hblind hregular v).eq trivial, Bool.and_eq_true]
  | disjoint d =>
      intro v hboth
      rw [← Bool.and_eq_true, hmet trivial hregular v] at hboth
      cases hboth
  | orthogonal =>
      rcases hmet.2 with h | h <;> rw [isRefinement] at h
      · rw [hlRoot] at h; cases h
      · rw [hrRoot] at h; cases h

/-- The text `x` is a sample of an optional text and of an optional `x` under one key, and so their intersection is exact. -/
example : ∃ (space : Space) (l r : Node) (out : Intersected), @Space.Reachable Stock.behaviour False space ∧
    l.kind = .intersection ∧ r.kind = .intersection ∧ ¬ l.Tame ∧ ¬ r.Tame ∧
      ((@intersect Stock.behaviour l r).exec space).1 = .ok out ∧ @SaysBoth Stock.behaviour l r out := by
  let _ := Stock.behaviour
  let written (value : Definition) : Definition := .map [("basis", .string "object"),
    ("optional", .list [.map [("key", .string "a"), ("value", value)]])]
  let text : Definition := .string "string"
  let x : Definition := .map [("unit", .string "x")]
  let sample : PropKey → Value := fun _ => .string "x"
  let program : SpaceM Bool := do
    let l ← (written text).readRoot
    let r ← (written x).readRoot
    let _ ← intersect l r
    let space ← get
    return decide (l.kind = .intersection ∧ r.kind = .intersection ∧ (¬ l.Tame ∧ ¬ r.Tame) ∧
      (l.SampledBy sample ∧ r.SampledBy sample) ∧ space.Regular)
  have hyields : program.yields (.new 0 .standard) (fun b => b) = true := by
    decide +kernel
  obtain ⟨l, hl, hyields⟩ := SpaceM.yields_bind.mp hyields
  obtain ⟨r, hr, hyields⟩ := SpaceM.yields_bind.mp hyields
  obtain ⟨out, hout, hyields⟩ := SpaceM.yields_bind.mp hyields
  rw [SpaceM.yields_get, SpaceM.yields_pure, decide_eq_true_eq] at hyields
  obtain ⟨hlKind, hrKind, ⟨hlTame, hrTame⟩, ⟨hlSampled, hrSampled⟩, hregular⟩ := hyields
  obtain ⟨hfirst, -, hholds⟩ := (@Space.Reachable.new _ False 0 .standard).read (d := written text) (List.forall_mem_nil _)
  obtain ⟨hsecond, hext, hholds'⟩ := hfirst.read (d := written x) (List.forall_mem_nil _)
  obtain ⟨out, hout, hexact⟩ := intersect_sampled Stock.blindToSign hsecond (hext.holds l (hholds l hl)) (hholds' r hr)
    (by rw [hlKind]; rfl) (by rw [hrKind]; rfl) hlSampled hrSampled hregular
  exact ⟨_, l, r, out, hsecond, hlKind, hrKind, hlTame, hrTame, hout, hexact⟩

-- ---------------------------------------------------------------------------
-- Tame nodes
-- ---------------------------------------------------------------------------

/-- Intersection is exact. The space is to be regular also after it, since multiples may be formed on the way. -/
theorem intersect_exact {adopting : Prop} (hblind : BlindToSign) (hreachable : space.Reachable adopting) {l r : Node}
    (hl : space.Holds l) (hr : space.Holds r) (hlRoot : l.kind.isRefinement = false)
    (hrRoot : r.kind.isRefinement = false) (hlTame : l.Tame) (hrTame : r.Tame)
    (hregular : ((intersect l r).exec space).2.Regular) :
    ∃ out, ((intersect l r).exec space).1 = .ok out ∧ SaysBoth l r out :=
  intersect_sampled hblind hreachable hl hr hlRoot hrRoot (hlTame.sampledBy fun _ => .undefined)
    (hrTame.sampledBy fun _ => .undefined) hregular

omit [Behaviour] in
/-- Multiples of 4 and multiples of 6: the outcome is a node, which allows the multiples of both. -/
theorem divisors_intersect_exact : ∃ (space : Space) (l r n : Node), @Space.Reachable Stock.behaviour False space ∧
    space.Holds l ∧ space.Holds r ∧ ((@intersect Stock.behaviour l r).exec space).2.Regular ∧
      ((@intersect Stock.behaviour l r).exec space).1 = .ok (.node n) ∧ @SaysBoth Stock.behaviour l r (.node n) := by
  let _ := Stock.behaviour
  let multiplesOf (d : Nat) : Definition := .map [("domain", .string "number"), ("divisor", .number (.ofNat d))]
  let program : SpaceM Bool := do
    let l ← (multiplesOf 4).readRoot
    let r ← (multiplesOf 6).readRoot
    let out ← intersect l r
    let space ← get
    return out.isNode && !l.isRefinement && !r.isRefinement && l.Tame && r.Tame && space.Regular
  have hyields : program.yields (.new 0 .standard) (fun b => b) = true := by
    decide +kernel
  obtain ⟨l, hl, hyields⟩ := SpaceM.yields_bind.mp hyields
  obtain ⟨r, hr, hyields⟩ := SpaceM.yields_bind.mp hyields
  obtain ⟨out, hout, hyields⟩ := SpaceM.yields_bind.mp hyields
  rw [SpaceM.yields_get, SpaceM.yields_pure] at hyields
  simp only [Bool.and_eq_true, Bool.not_eq_true', decide_eq_true_eq] at hyields
  obtain ⟨⟨⟨⟨⟨hnode, hlRoot⟩, hrRoot⟩, hlTame⟩, hrTame⟩, hregular⟩ := hyields
  obtain ⟨n, rfl⟩ := Intersected.isNode_iff.mp hnode
  obtain ⟨hfirst, -, hholds⟩ := (@Space.Reachable.new _ False 0 .standard).read (d := multiplesOf 4) (List.forall_mem_nil _)
  obtain ⟨hsecond, hext, hholds'⟩ := hfirst.read (d := multiplesOf 6) (List.forall_mem_nil _)
  have hlHeld := hext.holds l (hholds l hl)
  obtain ⟨out, hout', hexact⟩ := intersect_exact Stock.blindToSign hsecond hlHeld (hholds' r hr) hlRoot hrRoot
    hlTame hrTame hregular
  rw [hout] at hout'
  cases hout'
  exact ⟨_, l, r, n, hsecond, hlHeld, hholds' r hr, hregular, hout, hexact⟩

-- ---------------------------------------------------------------------------
-- Optional properties
-- ---------------------------------------------------------------------------

/-- The value of a tame optional property of a space is within reach. -/
theorem within_optional {node value : Node} {key : PropKey} {depth : Nat} (hvalid : space.Valid)
    (hnode : space.Holds node) (hc : node.content = .optional key value) (htame : value.Tame)
    (hdepth : node.nesting ≤ depth) : value.Within True depth space where
  holds := by
    refine hvalid.closed node hnode value ?_
    rw [children, hc]
    exact List.mem_cons_self
  shallow := by
    intro _
    rw [nesting_eq, hc] at hdepth
    exact hdepth
  admitted := fun _ _ => htame.admits _
  root := by
    intro _ hregular
    have hexact := hregular.exact node hnode
    rw [hc] at hexact
    exact hexact

/-- Optional properties under one key conflict if their values do, in which case no value is allowed under the key. -/
theorem intersect_optionals_spec {l r a b : Node} {key : PropKey} (hblind : BlindToSign) (hvalid : space.Valid)
    (hl : space.Holds l) (hr : space.Holds r) (hlc : l.content = .optional key a) (hrc : r.content = .optional key b)
    (haTame : a.Tame) (hbTame : b.Tame) : Ensures True True space (intersect l r) fun later out =>
      ∀ d, out = .disjoint d → later.Regular → ∀ x, (a.allows x && b.allows x) = false := by
  refine (adopt_spec hvalid (.inl hr)).bind ?_
  rintro later n hvalid' hext ⟨-, -, hsame⟩
  rw [hsame hr]
  unfold meetHere meetBy
  have horder : ¬ r.kind.order < l.kind.order := by
    rw [kind, kind, hlc, hrc]
    exact Nat.lt_irrefl _
  rw [if_neg horder]
  split
  · exact .pure hvalid' fun d hd => by cases hd
  have hrule : meetUnions (conjoinWithin (Nat.max l.nesting r.nesting)) l r =
      meetProps (conjoinWithin (Nat.max l.nesting r.nesting)) (.optional key) l r key a b := by
    simp only [meetUnions, meetMorphs, meetIntersections, meetConstraints, hlc, hrc, if_true]
  rw [hrule]
  have ha := within_optional hvalid' (hext.holds l hl) hlc haTame (Nat.le_max_left l.nesting r.nesting)
  have hb := within_optional hvalid' (hext.holds r hr) hrc hbTame (Nat.le_max_right l.nesting r.nesting)
  refine (conjoinWithin_spec (fun _ => hblind) _ later a b hvalid' ha hb).bind ?_
  intro final out hfinal hext' hout
  cases out with
  | node value =>
      have hout : Conjunct True _ a b final value := hout
      dsimp only
      split
      · exact .pure hfinal fun d hd => by cases hd
      · split
        · exact .pure hfinal fun d hd => by cases hd
        · have hready : (Content.optional key value).Ready True final .none :=
            ⟨trivial, trivial, List.forall_mem_singleton.mpr hout.calm.holds, fun _ _ => trivial⟩
          exact (Ensures.intern hfinal hready).bind fun last _ hlast _ _ => .pure hlast fun d hd => by cases hd
  | disjoint d => exact .pure hfinal fun _ _ hregular => hout trivial hregular
  | orthogonal => exact hout.elim

/-- Conflicting optional properties have values in common, but only those without the key. -/
theorem conflicting_optionals {adopting : Prop} {l r a b : Node} {key : PropKey} {d : Disjoint} (hblind : BlindToSign)
    (hreachable : space.Reachable adopting) (hl : space.Holds l) (hr : space.Holds r)
    (hlc : l.content = .optional key a) (hrc : r.content = .optional key b) (haTame : a.Tame) (hbTame : b.Tame)
    (hout : ((intersect l r).exec space).1 = .ok (.disjoint d)) (hregular : ((intersect l r).exec space).2.Regular)
    (v : Value) : l.allows v = true ∧ r.allows v = true ↔ v.get? key = none := by
  have hvalid := hreachable.valid
  rw [hvalid.allows hl, hvalid.allows hr, hlc, hrc]
  simp only [Content.allows]
  cases hget : v.get? key with
  | none => exact iff_of_true ⟨rfl, rfl⟩ rfl
  | some x =>
      refine iff_of_false ?_ (by rintro ⟨⟩)
      rw [← Bool.and_eq_true]
      have hspec := intersect_optionals_spec hblind hvalid hl hr hlc hrc haTame hbTame
      rw [hspec.result _ hout d rfl hregular x]
      exact Bool.false_ne_true

/-- An optional property `a` with a value of the named domain. -/
def optionalA (domain : String) : Definition := .map [("key", .string "a"), ("value", .string domain)]

omit [Behaviour] in
/-- An optional string and an optional number under one key: the empty object is allowed by both. -/
theorem conflicting_string_and_number : ∃ (space : Space) (l r : Node) (d : Disjoint) (v : Value),
    @Space.Reachable Stock.behaviour False space ∧ space.Holds l ∧ space.Holds r ∧
      ((@intersect Stock.behaviour l r).exec space).1 = .ok (.disjoint d) ∧
      @Node.allows Stock.behaviour l v = true ∧ @Node.allows Stock.behaviour r v = true := by
  let _ := Stock.behaviour
  let v : Value := .object ⟨0, some .object, .plain, []⟩
  let program : SpaceM Bool := do
    let l ← Definition.readKind .optional (optionalA "string")
    let r ← Definition.readKind .optional (optionalA "number")
    let out ← intersect l r
    let space ← get
    return out.isDisjoint && l.isTameOptional (.string "a") && r.isTameOptional (.string "a") && space.Regular
  have hyields : program.yields (.new 0 .standard) (fun b => b) = true := by
    decide +kernel
  obtain ⟨l, hl, hyields⟩ := SpaceM.yields_bind.mp hyields
  obtain ⟨r, hr, hyields⟩ := SpaceM.yields_bind.mp hyields
  obtain ⟨out, hout, hyields⟩ := SpaceM.yields_bind.mp hyields
  rw [SpaceM.yields_get, SpaceM.yields_pure] at hyields
  simp only [Bool.and_eq_true, decide_eq_true_eq, Intersected.isDisjoint_iff, isTameOptional_iff] at hyields
  obtain ⟨⟨⟨⟨d, rfl⟩, a, hlc, haTame⟩, b, hrc, hbTame⟩, hregular⟩ := hyields
  obtain ⟨hfirst, -, hholds⟩ := @Space.Reachable.readKind _ _ False (.new 0 .standard) .optional (optionalA "string")
    (List.forall_mem_nil _)
  obtain ⟨hsecond, hext, hholds'⟩ := @Space.Reachable.readKind _ _ False hfirst .optional (optionalA "number")
    (List.forall_mem_nil _)
  have hlHeld := hext.holds l (hholds l hl)
  obtain ⟨hallows, hallows'⟩ := (conflicting_optionals Stock.blindToSign hsecond hlHeld (hholds' r hr) hlc hrc haTame
    hbTame hout hregular v).mpr rfl
  exact ⟨_, l, r, d, v, hsecond, hlHeld, hholds' r hr, hout, hallows, hallows'⟩

omit [Behaviour] in
/-- The empty object is allowed by an object with an optional string and by one with an optional number, but
intersecting the two gives a conflict. -/
theorem conflict_without_key : ∃ (space : Space) (l r : Node) (d : Disjoint) (v : Value),
    @Space.Reachable Stock.behaviour False space ∧ space.Holds l ∧ space.Holds r ∧
      (l.Everywhere fun n => n.kind ≠ .morph) ∧ (r.Everywhere fun n => n.kind ≠ .morph) ∧
      l.kind.isRefinement = false ∧ r.kind.isRefinement = false ∧
      ((@intersect Stock.behaviour l r).exec space).1 = .ok (.disjoint d) ∧
      @Node.allows Stock.behaviour l v = true ∧ @Node.allows Stock.behaviour r v = true := by
  let _ := Stock.behaviour
  let written (domain : String) : Definition :=
    .map [("basis", .string "object"), ("optional", .list [optionalA domain])]
  let v : Value := .object ⟨0, some .object, .plain, []⟩
  let program : SpaceM Bool := do
    let l ← (written "string").readRoot
    let r ← (written "number").readRoot
    let out ← intersect l r
    return out.isDisjoint && (l.Everywhere fun n => n.kind ≠ .morph) && (r.Everywhere fun n => n.kind ≠ .morph) &&
      !l.isRefinement && !r.isRefinement && l.allows v && r.allows v
  have hyields : program.yields (.new 0 .standard) (fun b => b) = true := by
    decide +kernel
  obtain ⟨l, hl, hyields⟩ := SpaceM.yields_bind.mp hyields
  obtain ⟨r, hr, hyields⟩ := SpaceM.yields_bind.mp hyields
  obtain ⟨out, hout, hyields⟩ := SpaceM.yields_bind.mp hyields
  rw [SpaceM.yields_pure] at hyields
  simp only [Bool.and_eq_true, Bool.not_eq_true', decide_eq_true_eq, Intersected.isDisjoint_iff] at hyields
  obtain ⟨⟨⟨⟨⟨⟨⟨d, rfl⟩, hlMorph⟩, hrMorph⟩, hlRoot⟩, hrRoot⟩, hlAllows⟩, hrAllows⟩ := hyields
  obtain ⟨hfirst, -, hholds⟩ := (@Space.Reachable.new _ False 0 .standard).read (d := written "string")
    (List.forall_mem_nil _)
  obtain ⟨hsecond, hext, hholds'⟩ := hfirst.read (d := written "number") (List.forall_mem_nil _)
  exact ⟨_, l, r, d, v, hsecond, hext.holds l (hholds l hl), hholds' r hr, hlMorph, hrMorph, hlRoot, hrRoot, hout,
    hlAllows, hrAllows⟩

end Node

end SchemaAlgebra
