-- SUMMARY: How divisors and bounds are written, and that they read back if doubles can hold their numbers.
import SchemaAlgebra.Proofs.Literals
import SchemaAlgebra.Proofs.RoundTrip
import SchemaAlgebra.Proofs.SideBySide

/-!
# Numeric refinements read back

The JSON of a divisor or a bound is its number, or an object with the number where the
number alone does not say everything. Reading gives the refinement again as long as
the number survives: a limit has to be finite, since other numbers are written as
strings and no bound is read from a string; and a divisor, which may have come about
as a least common multiple, has to be a double, or the largest one of 64 bits.
-/

namespace SchemaAlgebra

-- ---------------------------------------------------------------------------
-- Captions
-- ---------------------------------------------------------------------------

namespace Caption

/-- The entries that a caption adds to an object. -/
def notes (caption : Caption) : List (String × Json) :=
  caption.description.toList.map (fun s => ("description", .string s)) ++
    caption.label.toList.map (fun s => ("alias", .string s))

theorem eq_none_of_isEmpty {caption : Caption} (h : caption.isEmpty = true) : caption = .none := by
  obtain ⟨description, label⟩ := caption
  cases description <;> cases label <;> first | rfl | cases h

/-- An object without a short form carries its caption. -/
theorem attach_none (caption : Caption) (fields : List (String × Json)) :
    caption.attach true .none fields = .object (fields ++ caption.notes) := by
  cases hempty : caption.isEmpty with
  | true =>
      rw [eq_none_of_isEmpty hempty]
      rfl
  | false =>
      simp only [attach, hempty]
      rfl

/-- The short form stands for an object without a caption. -/
theorem attach_some (caption : Caption) (short : Json) (fields : List (String × Json)) :
    caption = .none ∧ caption.attach true (some short) fields = short ∨
      caption.attach true (some short) fields = .object (fields ++ caption.notes) := by
  cases hempty : caption.isEmpty with
  | true => exact .inl ⟨eq_none_of_isEmpty hempty, by simp only [attach, hempty]; rfl⟩
  | false => exact .inr (by simp only [attach, hempty]; rfl)

end Caption

namespace Definition

open SpaceM (parseError)

theorem lookup_ofFields (fields : List (String × Json)) (key : String) :
    (ofFields fields).lookup key = (fields.lookup key).map ofJson := by
  induction fields with
  | nil => rfl
  | cons field rest ih =>
      obtain ⟨k, json⟩ := field
      rw [ofFields, List.lookup_cons, List.lookup_cons, ih]
      cases key == k <;> rfl

theorem map_fst_ofFields (fields : List (String × Json)) : (ofFields fields).map Prod.fst = fields.map Prod.fst := by
  induction fields with
  | nil => rfl
  | cons field rest ih => rw [ofFields, List.map_cons, List.map_cons, ih]

variable {fields : List (String × Json)} {caption : Caption} {key : String}

/-- A caption says nothing under other keys than its own. -/
theorem lookup_written (hkey : ¬ Caption.Reserved key) :
    (ofFields (fields ++ caption.notes)).lookup key = (fields.lookup key).map ofJson := by
  have hfield := @Caption.field?_attach true caption none fields key hkey nofun
  rw [Caption.attach_none, Json.field?] at hfield
  rw [lookup_ofFields, hfield]

/-- The caption of an object is read with it. -/
theorem checkEntries_written (kind : Kind) {allowed : List String} (hallowed : ∀ field ∈ fields, field.1 ∈ allowed)
    (hreserved : ∀ field ∈ fields, ¬ Caption.Reserved field.1) :
    checkEntries kind allowed (ofFields (fields ++ caption.notes)) = pure caption := by
  have hknown : (ofFields (fields ++ caption.notes)).find? (fun entry =>
      !allowed.contains entry.1 && !captionKeys.contains entry.1) = none := by
    rw [List.find?_eq_none]
    intro entry hentry
    have hkey : entry.1 ∈ fields.map Prod.fst ∨ entry.1 ∈ captionKeys := by
      have hmem := List.mem_map_of_mem (f := Prod.fst) hentry
      rw [map_fst_ofFields, List.map_append] at hmem
      refine (List.mem_append.mp hmem).imp_right fun hmem => ?_
      obtain ⟨description, label⟩ := caption
      cases description <;> cases label <;> simp_all [Caption.notes, captionKeys]
    rcases hkey with hkey | hkey
    · obtain ⟨field, hfield, heq⟩ := List.mem_map.mp hkey
      simp [← heq, hallowed field hfield]
    · simp [hkey]
  obtain ⟨hdescription, hlabel⟩ := @Caption.field?_notes caption none fields ⟨hreserved, nofun⟩
  rw [Caption.attach_none, Json.field?] at hdescription hlabel
  have htext {key : String} {text : Option String} (h : (fields ++ caption.notes).lookup key = text.map .string) :
      optionalText key (ofFields (fields ++ caption.notes)) = pure text := by
    rw [optionalText, lookup_ofFields, h]
    cases text <;> rfl
  unfold checkEntries
  rw [hknown]
  dsimp only
  rw [htext hdescription, htext hlabel]
  rfl

-- ---------------------------------------------------------------------------
-- Divisors
-- ---------------------------------------------------------------------------

theorem requiredNumber_eq {kind : Kind} {entries : Entries} {n : Number} (h : entries.lookup key = some (.number n))
    (hn : n.isNaN = false) : requiredNumber kind key entries = pure n := by
  unfold requiredNumber requiredEntry
  rw [h, pure_bind]
  simp only [hn]
  rfl

/-- Whether a divisor is read from its own digits: it is a double, or the largest one, which is read from the double
next to it. -/
def Legible (d : Nat) : Prop := (Number.ofNat d).toInt? = some (d : Int) ∨ d = Nat.pow 2 64 - 1

/-- Which numbers are read as a divisor. -/
theorem divisorOf_eq_pure_iff {n : Number} {d : Nat} : divisorOf n = pure d ↔
    ∃ i, n.toInt? = some i ∧ 1 ≤ i ∧ i.toNat ≤ Nat.pow 2 64 ∧ Nat.min i.toNat (Nat.pow 2 64 - 1) = d := by
  unfold divisorOf
  constructor
  · intro h
    split at h
    · rename_i i hint
      split at h
      · rename_i hrange
        exact ⟨i, hint, hrange.1, hrange.2, SpaceM.pure_injective h⟩
      · exact absurd h SpaceM.parseError_ne_pure
    · exact absurd h SpaceM.parseError_ne_pure
  · rintro ⟨i, hint, hlow, hhigh, rfl⟩
    rw [hint]
    exact if_pos ⟨hlow, hhigh⟩

theorem divisorOf_ofNat_iff {d : Nat} (hpos : 0 < d) (hfits : d < Nat.pow 2 64) :
    divisorOf (.ofNat d) = pure d ↔ Legible d := by
  rw [divisorOf_eq_pure_iff, Legible]
  constructor
  · rintro ⟨i, hint, hlow, hhigh, hmin⟩
    rcases Nat.le_total i.toNat (Nat.pow 2 64 - 1) with hle | hle
    · have hi : i.toNat = d := (Nat.min_eq_left hle).symm.trans hmin
      have hi : i = d := by omega
      exact .inl (hi ▸ hint)
    · exact .inr ((Nat.min_eq_right hle).symm.trans hmin).symm
  · rintro (hint | rfl)
    · have hmin : Nat.min (d : Int).toNat (Nat.pow 2 64 - 1) = d := Nat.min_eq_left (Nat.le_sub_one_of_lt hfits)
      exact ⟨d, hint, by omega, hfits.le, hmin⟩
    · have hint : (Number.ofNat (Nat.pow 2 64 - 1)).toInt? = some ((Nat.pow 2 64 : Nat) : Int) := by decide +kernel
      have hmin (m : Nat) : Nat.min (m : Int).toNat (m - 1) = m - 1 := by
        rw [Int.toNat_natCast]
        exact Nat.min_eq_right (Nat.sub_le m 1)
      have hlow : 1 ≤ ((Nat.pow 2 64 : Nat) : Int) := Int.ofNat_le.mpr (Nat.pow_pos (by decide))
      exact ⟨_, hint, hlow, (Int.toNat_natCast _).le, hmin _⟩

theorem isNaN_ofNat (d : Nat) : (Number.ofNat d).isNaN = false := by
  unfold Number.ofNat Number.ofQuotient Number.ofPlace
  dsimp only
  split <;> rfl

/-- What the JSON of a divisor is read as depends on its number. -/
theorem readDivisor_json (registry : Registry) (d : Nat) (caption : Caption) :
    readDivisor (ofJson ((Content.divisor d : Content Node).json registry true caption)) =
      (do SpaceM.intern (.divisor (← divisorOf (.ofNat d))) caption) := by
  rw [Content.json]
  rcases caption.attach_some (.integer d) [("divisor", .integer d)] with ⟨rfl, hjson⟩ | hjson
  · rw [hjson]
    rfl
  · have hcheck := @checkEntries_written [("divisor", .integer d)] caption .divisor ["divisor"]
      (List.forall_mem_singleton.mpr List.mem_cons_self)
      (List.forall_mem_singleton.mpr (show ¬ Caption.Reserved "divisor" by decide))
    have hnumber : requiredNumber .divisor "divisor" (ofFields ([("divisor", .integer d)] ++ caption.notes)) =
        pure (.ofNat d) :=
      requiredNumber_eq (by rw [lookup_written (by decide)]; rfl) (isNaN_ofNat d)
    rw [hjson, ofJson, readDivisor, entriesOf, pure_bind, hcheck, pure_bind, hnumber, pure_bind]
    rintro _ ⟨⟩

-- ---------------------------------------------------------------------------
-- Bounds
-- ---------------------------------------------------------------------------

theorem ofName?_name (axis : BoundAxis) : BoundAxis.ofName? axis.name = some axis := by
  cases axis <;> rfl

/-- The entries that a bound is written with. -/
def boundFields (implied : BoundAxis) (bound : Bound) : List (String × Json) :=
  ("limit", Literal.encodeNumber bound.limit) :: (if bound.exclusive then [("exclusive", .bool true)] else []) ++
    if bound.axis = implied then [] else [("axis", .string bound.axis.name)]

/-- A bound is written as its limit, or as an object. -/
theorem bound_json_cases (bound : Bound) (caption : Caption) (implied : BoundAxis) :
    (bound.exclusive = false ∧ bound.axis = implied ∧ caption = .none ∧
        bound.json true caption implied = Literal.encodeNumber bound.limit) ∨
      bound.json true caption implied = .object (boundFields implied bound ++ caption.notes) := by
  unfold Bound.json
  dsimp only
  split
  · rename_i hplain
    simp only [Bool.and_eq_true, Bool.not_eq_true', decide_eq_true_eq] at hplain
    rcases caption.attach_some (Literal.encodeNumber bound.limit) (boundFields implied bound) with ⟨hnone, hjson⟩ | hjson
    · exact .inl ⟨hplain.1, hplain.2, hnone, hjson⟩
    · exact .inr hjson
  · exact .inr (caption.attach_none _)

theorem checkEntries_bound (kind : Kind) (implied : BoundAxis) (bound : Bound) (caption : Caption) :
    checkEntries kind ["limit", "exclusive", "axis"] (ofFields (boundFields implied bound ++ caption.notes)) =
      pure caption := by
  have hkeys : ∀ field ∈ boundFields implied bound, field.1 ∈ ["limit", "exclusive", "axis"] := by
    intro field hfield
    unfold boundFields at hfield
    split at hfield <;> split at hfield <;> simp at hfield <;> aesop
  refine checkEntries_written kind hkeys fun field hfield => ?_
  have hmem := hkeys field hfield
  simp only [List.mem_cons, List.not_mem_nil, or_false] at hmem
  rcases hmem with h | h | h <;> rw [h] <;> decide

theorem lookup_boundFields (implied : BoundAxis) (bound : Bound) :
    (boundFields implied bound).lookup "limit" = some (Literal.encodeNumber bound.limit) ∧
      (boundFields implied bound).lookup "exclusive" = (if bound.exclusive then some (.bool true) else none) ∧
      (boundFields implied bound).lookup "axis" =
        if bound.axis = implied then none else some (.string bound.axis.name) := by
  unfold boundFields
  cases bound.exclusive <;> by_cases haxis : bound.axis = implied <;> simp [haxis, List.lookup_cons]

/-- What is read as a bound from the entries that it is written with. -/
theorem readBound_written (kind : Kind) (implied : BoundAxis) (bound : Bound) (caption : Caption) {limit : Number}
    (hlimit : ofJson (Literal.encodeNumber bound.limit) = .number limit) (hnan : limit.isNaN = false) :
    readBound kind implied (.map (ofFields (boundFields implied bound ++ caption.notes))) =
      pure (⟨limit, bound.exclusive, bound.axis⟩, caption) := by
  obtain ⟨hlookup, hlookup', hlookup''⟩ := lookup_boundFields implied bound
  have hnumber : requiredNumber kind "limit" (ofFields (boundFields implied bound ++ caption.notes)) = pure limit :=
    requiredNumber_eq (by rw [lookup_written (by decide), hlookup, Option.map_some, hlimit]) hnan
  have hexclusive : optionalFlag "exclusive" (ofFields (boundFields implied bound ++ caption.notes)) =
      pure bound.exclusive := by
    rw [optionalFlag, lookup_written (by decide), hlookup']
    cases bound.exclusive <;> rfl
  have haxis : readAxis implied (ofFields (boundFields implied bound ++ caption.notes)) = pure bound.axis := by
    rw [readAxis, optionalText, lookup_written (by decide), hlookup'']
    by_cases hsame : bound.axis = implied
    · rw [if_pos hsame, hsame]
      rfl
    · rw [if_neg hsame, Option.map_some, ofJson]
      simp only [pure_bind, ofName?_name]
  rw [readBound, entriesOf, pure_bind, checkEntries_bound, pure_bind, hnumber, pure_bind, hexclusive, pure_bind, haxis,
    pure_bind]
  rintro _ ⟨⟩

/-- A finite bound is read from its JSON, with its caption, up to the sign of a limit that is zero. -/
theorem readBound_json (kind : Kind) (implied : BoundAxis) {bound : Bound} (h : bound.limit.isFinite = true)
    (caption : Caption) : ∃ b, readBound kind implied (ofJson (bound.json true caption implied)) = pure (b, caption) ∧
      b.unsigned = bound.unsigned := by
  obtain ⟨limit, hlimit, hfinite, hequal⟩ := ofJson_encodeNumber h
  have hnan : limit.isNaN = false := by
    cases limit <;> first | rfl | cases hfinite
  have hunsigned : (⟨limit, bound.exclusive, bound.axis⟩ : Bound).unsigned = bound.unsigned := by
    simp only [Bound.unsigned, hequal]
  refine ⟨⟨limit, bound.exclusive, bound.axis⟩, ?_, hunsigned⟩
  rcases bound_json_cases bound caption implied with ⟨hexclusive, haxis, rfl, hjson⟩ | hjson
  · rw [hjson, hlimit, readBound, if_neg (by rw [hnan]; exact Bool.false_ne_true), hexclusive, haxis]
  · rw [hjson, ofJson, readBound_written kind implied bound caption hlimit hnan]

/-- A limit that is not finite is written as a string, which no limit is read from. -/
theorem readBound_json_refused (kind : Kind) (implied : BoundAxis) {bound : Bound} (h : bound.limit.isFinite = false)
    (caption : Caption) : ∃ reason, readBound kind implied (ofJson (bound.json true caption implied)) =
      parseError reason := by
  have hlimit := ofJson_encodeNumber_of_not_finite h
  rcases bound_json_cases bound caption implied with ⟨-, -, -, hjson⟩ | hjson
  · rw [hjson, hlimit]
    exact ⟨_, rfl⟩
  · have hnumber : ∃ reason, requiredNumber kind "limit" (ofFields (boundFields implied bound ++ caption.notes)) =
        parseError reason := by
      unfold requiredNumber requiredEntry
      rw [lookup_written (by decide), (lookup_boundFields implied bound).1, Option.map_some, hlimit, pure_bind]
      exact ⟨_, rfl⟩
    obtain ⟨reason, hnumber⟩ := hnumber
    rw [hjson, ofJson, readBound, entriesOf, pure_bind, checkEntries_bound, pure_bind, hnumber]
    · exact ⟨reason, rfl⟩
    · rintro _ ⟨⟩

end Definition

-- ---------------------------------------------------------------------------
-- Refinements
-- ---------------------------------------------------------------------------

/-- Whether the number of a divisor or a bound survives in its JSON. -/
def Content.Legible : Content Node → Prop
  | .divisor d => Definition.Legible d
  | .max bound => bound.limit.isFinite = true
  | .min bound => bound.limit.isFinite = true
  | _ => True

instance (content : Content Node) : Decidable content.Legible :=
  match content with
  | .divisor d => inferInstanceAs (Decidable ((Number.ofNat d).toInt? = some (d : Int) ∨ d = Nat.pow 2 64 - 1))
  | .max bound | .min bound => inferInstanceAs (Decidable (bound.limit.isFinite = true))
  | .union _ _ | .morph _ _ _ | .intersection _ _ | .unit _ | .proto _ | .domain _ | .pattern _ | .predicate _
  | .required _ _ | .optional _ _ => .isTrue trivial

namespace Kind

/-- The kinds of divisors and bounds. -/
def isNumeric (kind : Kind) : Bool := kind = .divisor || kind = .max || kind = .min

theorem isNumeric_iff {kind : Kind} : kind.isNumeric = true ↔ kind = .divisor ∨ kind = .max ∨ kind = .min := by
  cases kind <;> decide

end Kind

namespace Node

/-- The JSON of a refinement where plain bounds are on an axis. -/
def jsonUnder (implied : BoundAxis) (node : Node) : Json :=
  match node.content with
  | .max bound => bound.json true node.caption implied
  | .min bound => bound.json true node.caption implied
  | _ => node.json

/-- Alone, plain bounds are on values. -/
theorem jsonUnder_value {registry : Registry} {node : Node} (h : node.Written registry) :
    node.jsonUnder .value = node.json := by
  rw [h.json, jsonUnder]
  cases hc : node.content with
  | max bound => rfl
  | min bound => rfl
  | _ => rw [h.json, hc]

/-- A divisor, or a bound on one of the two sides. -/
theorem content_of_isNumeric {node : Node} (h : node.kind.isNumeric = true) : (∃ d, node.content = .divisor d) ∨
    ∃ make bound, (make = Content.max ∨ make = Content.min) ∧ node.content = make bound := by
  unfold kind at h
  cases hc : node.content with
  | divisor d => exact .inl ⟨d, rfl⟩
  | max bound => exact .inr ⟨.max, bound, .inl rfl, rfl⟩
  | min bound => exact .inr ⟨.min, bound, .inr rfl, rfl⟩
  | _ => rw [hc] at h; cases h

theorem jsonUnder_divisor {registry : Registry} {node : Node} {d : Nat} (h : node.Written registry)
    (hc : node.content = .divisor d) (implied : BoundAxis) :
    node.jsonUnder implied = (Content.divisor d : Content Node).json registry true node.caption := by
  rw [jsonUnder, h.json, hc]

theorem jsonUnder_bound {node : Node} {make : Bound → Content Node} {bound : Bound}
    (hmake : make = .max ∨ make = .min) (hc : node.content = make bound) (implied : BoundAxis) :
    node.jsonUnder implied = bound.json true node.caption implied := by
  rw [jsonUnder, hc]
  rcases hmake with rfl | rfl <;> rfl

end Node

namespace Definition

open SpaceM (parseError)

variable {space : Space} {node : Node}

theorem readFlatRefinement_bound {make : Bound → Content Node} (hmake : make = .max ∨ make = .min) (bound : Bound)
    (axis : BoundAxis) (d : Definition) : readFlatRefinement (make bound).kind axis d =
      (do let read ← readBound (make bound).kind axis d; SpaceM.intern (make read.1) read.2) := by
  rcases hmake with rfl | rfl <;> rfl

/-- A live divisor or bound is read from its JSON if the number survives, and the space stays as it is. -/
theorem readFlatRefinement_live (hvalid : space.Valid) (hnode : space.Holds node) (hnumeric : node.kind.isNumeric = true)
    (implied : BoundAxis) (h : node.content.Legible) :
    (readFlatRefinement node.kind implied (ofJson (node.jsonUnder implied))).exec space = (.ok node, space) := by
  have hintern {content : Content Node} (hcontent : content.unsigned = node.content.unsigned) :
      (SpaceM.intern content node.caption).exec space = (.ok node, space) := by
    change (Except.ok (space.intern content node.caption).1, (space.intern content node.caption).2) = _
    rw [hvalid.intern_live hnode hcontent]
  have hwritten := hvalid.written node hnode
  rcases Node.content_of_isNumeric hnumeric with ⟨d, hc⟩ | ⟨make, bound, hmake, hc⟩
  · have hsound := hwritten.sound
    have hcanonical := hvalid.canonical node hnode
    rw [hc] at h hsound hcanonical
    rw [Node.jsonUnder_divisor hwritten hc, Node.kind, hc]
    change (readDivisor _).exec space = _
    rw [readDivisor_json, (divisorOf_ofNat_iff hsound hcanonical).mpr h, pure_bind]
    exact hintern (by rw [hc])
  · have hfinite : bound.limit.isFinite = true := by
      rw [hc] at h
      rcases hmake with rfl | rfl <;> exact h
    obtain ⟨b, hread, hequal⟩ := readBound_json (make bound).kind implied hfinite node.caption
    rw [Node.jsonUnder_bound hmake hc, Node.kind, hc, readFlatRefinement_bound hmake, hread, pure_bind]
    refine hintern ?_
    rw [hc]
    rcases hmake with rfl | rfl <;> rw [Content.unsigned, Content.unsigned, hequal]

/-- If the number does not survive, something else is read, or nothing. -/
theorem legible_of_readFlatRefinement (hvalid : space.Valid) (hnode : space.Holds node)
    (hnumeric : node.kind.isNumeric = true) {implied : BoundAxis}
    (h : ((readFlatRefinement node.kind implied (ofJson (node.jsonUnder implied))).exec space).1 = .ok node) :
    node.content.Legible := by
  have hwritten := hvalid.written node hnode
  rcases Node.content_of_isNumeric hnumeric with ⟨d, hc⟩ | ⟨make, bound, hmake, hc⟩
  · have hsound := hwritten.sound
    have hcanonical := hvalid.canonical node hnode
    rw [hc] at hsound hcanonical
    rw [Node.jsonUnder_divisor hwritten hc, Node.kind, hc] at h
    change ((readDivisor _).exec space).1 = _ at h
    rw [readDivisor_json] at h
    obtain ⟨d', hread, hexec⟩ := (divisorOf_decided (.ofNat d)).exec_bind h
    rw [hexec] at h
    have hinterned : (space.intern (.divisor d') node.caption).1 = node := Except.ok.inj h
    have hpos : 0 < d' := by
      obtain ⟨i, -, hlow, -, rfl⟩ := divisorOf_eq_pure_iff.mp hread
      exact Nat.lt_min.mpr ⟨by omega, by decide⟩
    have houtline := (@Space.Valid.interned _ hvalid (.divisor d') node.caption hpos (List.forall_mem_nil _)).outline
    rw [hinterned, hc] at houtline
    obtain rfl : d = d' := Content.divisor.inj houtline
    rw [hc]
    exact (divisorOf_ofNat_iff hsound hcanonical).mp hread
  · have hfinite : bound.limit.isFinite = true := by
      refine (Bool.eq_false_or_eq_true _).resolve_right fun hinfinite => ?_
      obtain ⟨reason, hrefused⟩ := readBound_json_refused (make bound).kind implied hinfinite node.caption
      rw [Node.jsonUnder_bound hmake hc, Node.kind, hc, readFlatRefinement_bound hmake, hrefused] at h
      cases h
    rw [hc]
    rcases hmake with rfl | rfl <;> exact hfinite

/-- Reading a divisor or a bound by its kind is reading a refinement, whatever form the JSON has. -/
theorem readKind_ofJson [Behaviour] {kind : Kind} (h : kind.isNumeric = true) (json : Json) :
    readKind kind (ofJson json) = readFlatRefinement kind .value (ofJson json) := by
  rcases Kind.isNumeric_iff.mp h with rfl | rfl | rfl <;> cases json <;> rfl

end Definition

end SchemaAlgebra
