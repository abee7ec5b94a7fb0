-- SUMMARY: Names in a registry: they are never given twice, and things keep them.
import SchemaAlgebra.Registry
import SchemaAlgebra.Proofs.NumberText
import Mathlib.Data.List.Nodup

/-!
# Names

A registry is lawful if its names differ. Registering keeps it lawful and keeps
every name that a thing has, so a reference always means the same thing. It stays
so when a counter runs over, since the search for a name goes on until it is free.
-/

namespace SchemaAlgebra

-- ---------------------------------------------------------------------------
-- Counters
-- ---------------------------------------------------------------------------

/-- Unless it runs over, a counter is at the number that it counted on to. -/
theorem Counter.reach_eq {counter : Counter} {n : Nat} (h : (counter.reach n).overflowed = false) :
    counter.overflowed = false ∧ n < UInt32.size ∧ (counter.reach n).value.toNat = n := by
  simp only [reach, Bool.or_eq_false_iff, decide_eq_false_iff_not, Nat.not_le] at h
  exact ⟨h.1, h.2, UInt32.toNat_ofNat_of_lt' h.2⟩

theorem Counter.reach_overflowed {counter : Counter} {n : Nat} :
    (counter.reach n).overflowed = true ↔ counter.overflowed = true ∨ UInt32.size ≤ n := by
  simp only [reach, Bool.or_eq_true, decide_eq_true_eq]

theorem Counter.value_reach_le (counter : Counter) (n : Nat) : (counter.reach n).value.toNat ≤ n := by
  rw [reach, UInt32.toNat_ofNat']
  exact Nat.mod_le n _

namespace Counters

variable {κ : Type} [DecidableEq κ]

theorem read_cons (key : κ) (counter : Counter) (rest : Counters κ) (other : κ) :
    read ((key, counter) :: rest) other = if other = key then counter else rest.read other := by
  unfold read
  rw [List.lookup_cons]
  by_cases h : other = key
  · simp only [h, beq_self_eq_true, if_true, Option.getD_some]
  · simp only [beq_eq_false_iff_ne.mpr h, if_neg h]

theorem read_write (key : κ) (counter : Counter) (counters : Counters κ) (other : κ) :
    (counters.write key counter).read other = if other = key then counter else counters.read other := by
  induction counters with
  | nil => exact read_cons key counter [] other
  | cons entry rest ih =>
      obtain ⟨k, c⟩ := entry
      unfold write
      split
      · rename_i hk
        rw [read_cons, read_cons, hk]
        by_cases h : other = key <;> simp only [h, if_true, if_false]
      · rename_i hk
        rw [read_cons, read_cons, ih]
        by_cases h : other = k <;> simp only [h, if_true, if_false, if_neg hk]

theorem overflowed_of_read {counters : Counters κ} {key : κ} (h : (counters.read key).overflowed = true) :
    counters.overflowed = true := by
  cases hlookup : counters.lookup key with
  | none =>
      rw [read, hlookup] at h
      cases h
  | some counter =>
      rw [read, hlookup] at h
      obtain ⟨before, after, hsplit, -⟩ := List.lookup_eq_some_iff.mp hlookup
      exact List.any_eq_true.mpr ⟨(key, counter), by simp [hsplit], h⟩

end Counters

namespace Registry

-- ---------------------------------------------------------------------------
-- Candidates
-- ---------------------------------------------------------------------------

theorem toString_injective {m n : Nat} (h : toString m = toString n) : m = n := by
  have hdigits := congrArg String.toList h
  rw [Number.toList_toString, Number.toList_toString] at hdigits
  rw [← Number.digitsValue_toDigits m, hdigits, Number.digitsValue_toDigits]

theorem append_left_injective {base s t : String} (h : base ++ s = base ++ t) : s = t := by
  have hlist := congrArg String.toList h
  rw [String.toList_append, String.toList_append] at hlist
  exact String.toList_inj.mp (List.append_cancel_left hlist)

/-- Different numbers give different names. -/
theorem candidate_injective {base : String} {numbered : Bool} {m n : Nat} (hm : 1 ≤ m) (hn : 1 ≤ n)
    (h : candidate base numbered m = candidate base numbered n) : m = n := by
  have hne (k : Nat) : base ++ toString k ≠ base := by
    intro heq
    have hnil := append_left_injective (t := "") (heq.trans String.append_empty.symm)
    have hdigits := congrArg String.toList hnil
    rw [Number.toList_toString] at hdigits
    exact Nat.toDigits_ne_nil hdigits
  unfold candidate at h
  split at h <;> split at h
  · exact toString_injective (append_left_injective h)
  · exact absurd h (hne m)
  · exact absurd h.symm (hne n)
  · omega

/-- The search ends at a free name, or all names that it tried are taken. -/
theorem firstFree_spec (entries : List (String × Registered)) (base : String) (numbered : Bool)
    (fuel n : Nat) :
    (entries.lookup (candidate base numbered (firstFree entries base numbered fuel n)) = none ∧
        n ≤ firstFree entries base numbered fuel n) ∨
      ∀ i < fuel, candidate base numbered (n + i) ∈ entries.map Prod.fst := by
  induction fuel generalizing n with
  | zero => exact .inr fun i hi => absurd hi (Nat.not_lt_zero i)
  | succ fuel ih =>
      unfold firstFree
      split
      · rename_i htaken
        rcases ih (n + 1) with ⟨hfree, hle⟩ | hall
        · exact .inl ⟨hfree, by omega⟩
        · refine .inr fun i hi => ?_
          cases i with
          | zero =>
              obtain ⟨thing, hthing⟩ := Option.isSome_iff_exists.mp htaken
              obtain ⟨before, after, hsplit, -⟩ := List.lookup_eq_some_iff.mp hthing
              rw [hsplit]
              simp
          | succ i =>
              have := hall i (by omega)
              rwa [show n + (i + 1) = n + 1 + i by omega]
      · rename_i hfree
        exact .inl ⟨Option.not_isSome_iff_eq_none.mp hfree, le_rfl⟩

/-- With one more try than there are names a free one is found. -/
theorem lookup_firstFree (entries : List (String × Registered)) (base : String) (numbered : Bool) (n : Nat)
    (hn : 1 ≤ n) :
    entries.lookup (candidate base numbered (firstFree entries base numbered (entries.length + 1) n)) = none := by
  rcases firstFree_spec entries base numbered (entries.length + 1) n with ⟨hfree, -⟩ | hall
  · exact hfree
  exfalso
  let tried := (List.range (entries.length + 1)).map fun i => candidate base numbered (n + i)
  have hnodup : tried.Nodup := by
    refine List.nodup_range.map_on fun i _ j _ h => ?_
    have := candidate_injective (by omega) (by omega) h
    omega
  have hsubset : tried ⊆ entries.map Prod.fst := by
    intro name hname
    obtain ⟨i, hi, rfl⟩ := List.mem_map.mp hname
    exact hall i (List.mem_range.mp hi)
  have hlength := (List.subperm_of_subset hnodup hsubset).length_le
  simp only [tried, List.length_map, List.length_range] at hlength
  omega

-- ---------------------------------------------------------------------------
-- Lawful registries
-- ---------------------------------------------------------------------------

/-- What registering keeps: names differ, and those of symbols and objects end in their number. -/
structure Lawful (registry : Registry) : Prop where
  nodup : (registry.entries.map Prod.fst).Nodup
  numbered : ∀ entry ∈ registry.entries, ∀ v, entry.2 = .value v → ∃ base n, entry.1 = base ++ toString (n : Nat)

theorem lawful_empty (qualifier : String) : (empty qualifier).Lawful :=
  ⟨List.nodup_nil, nofun⟩

/-- A thing with an identity that has a name. -/
def Knows (registry : Registry) (thing : Registered) : Prop :=
  thing.hasIdentity = true ∧ ∃ name, registry.nameOf? thing = some name

/-- A registry with at least the names of another. -/
structure Extends (later earlier : Registry) : Prop where
  qualifier : later.qualifier = earlier.qualifier
  nameOf? : ∀ thing name, thing.hasIdentity = true → earlier.nameOf? thing = some name →
    later.nameOf? thing = some name

theorem Extends.refl (registry : Registry) : registry.Extends registry := ⟨rfl, fun _ _ _ h => h⟩

theorem Extends.trans {a b c : Registry} (h : c.Extends b) (h' : b.Extends a) : c.Extends a :=
  ⟨h.qualifier.trans h'.qualifier, fun thing name hid hname =>
    h.nameOf? thing name hid (h'.nameOf? thing name hid hname)⟩

theorem Knows.mono {earlier later : Registry} {thing : Registered} (h : earlier.Knows thing)
    (hext : later.Extends earlier) : later.Knows thing := by
  obtain ⟨hid, name, hname⟩ := h
  exact ⟨hid, name, hext.nameOf? thing name hid hname⟩

-- ---------------------------------------------------------------------------
-- Registering
-- ---------------------------------------------------------------------------

theorem baseName_value (v : Value) : (Registered.value v).baseName.2 = true := by
  cases v <;> rfl

/-- A new entry is put in front, under a name that was free. -/
theorem allocate_eq (registry : Registry) (thing : Registered) :
    ∃ n uses, registry.entries.lookup (candidate thing.baseName.1 thing.baseName.2 n) = none ∧
      registry.allocate thing = (candidate thing.baseName.1 thing.baseName.2 n,
        ⟨registry.qualifier, (candidate thing.baseName.1 thing.baseName.2 n, thing) :: registry.entries, uses⟩) :=
  ⟨_, _, lookup_firstFree registry.entries _ _ ((registry.uses.read thing.baseName.1).value.toNat + 1) (by omega), rfl⟩

theorem allocate_lawful {registry : Registry} (h : registry.Lawful) (thing : Registered) :
    (registry.allocate thing).2.Lawful := by
  obtain ⟨n, uses, hfree, heq⟩ := allocate_eq registry thing
  rw [heq]
  constructor
  · refine List.nodup_cons.mpr ⟨?_, h.nodup⟩
    intro hmem
    obtain ⟨entry, hentry, hname⟩ := List.mem_map.mp hmem
    have hne := List.lookup_eq_none_iff.mp hfree entry hentry
    exact absurd hname.symm (by simpa using hne)
  · intro entry hentry v hv
    rcases List.mem_cons.mp hentry with rfl | hentry
    · cases hv
      refine ⟨(Registered.value v).baseName.1, n, ?_⟩
      simp only [candidate, baseName_value, true_or, if_true]
    · exact h.numbered entry hentry v hv

/-- A new name for a thing without one leaves the names of all others. -/
theorem allocate_extends {registry : Registry} {thing : Registered}
    (h : thing.hasIdentity = true → registry.nameOf? thing = none) :
    (registry.allocate thing).2.Extends registry := by
  obtain ⟨n, uses, -, heq⟩ := allocate_eq registry thing
  rw [heq]
  refine ⟨rfl, fun other name hid hname => ?_⟩
  have hne : thing ≠ other := by
    rintro rfl
    rw [h hid] at hname
    cases hname
  simpa [nameOf?, List.find?_cons, hne] using hname

theorem register_lawful {registry : Registry} (h : registry.Lawful) (thing : Registered) :
    (registry.register thing).2.Lawful := by
  unfold register
  split
  · exact h
  · exact allocate_lawful h thing

theorem register_extends (registry : Registry) (thing : Registered) :
    (registry.register thing).2.Extends registry := by
  unfold register
  split
  · exact .refl registry
  · rename_i hnone
    exact allocate_extends fun hid => by rwa [if_pos hid] at hnone

theorem register_knows (registry : Registry) {thing : Registered} (hid : thing.hasIdentity = true) :
    (registry.register thing).2.Knows thing := by
  refine ⟨hid, ?_⟩
  unfold register
  rw [if_pos hid]
  split
  · rename_i name hname; exact ⟨name, hname⟩
  · obtain ⟨n, uses, -, heq⟩ := allocate_eq registry thing
    rw [heq]
    exact ⟨candidate thing.baseName.1 thing.baseName.2 n, by simp [nameOf?]⟩

theorem registerAll_lawful {registry : Registry} (h : registry.Lawful) (things : List Registered) :
    (registry.registerAll things).Lawful := by
  induction things generalizing registry with
  | nil => exact h
  | cons thing rest ih => exact ih (register_lawful h thing)

theorem registerAll_extends (registry : Registry) (things : List Registered) :
    (registry.registerAll things).Extends registry := by
  induction things generalizing registry with
  | nil => exact .refl registry
  | cons thing rest ih => exact (ih _).trans (register_extends registry thing)

/-- Things that have names keep them, and nothing else is named. -/
theorem registerAll_of_known {registry : Registry} {things : List Registered}
    (h : ∀ thing ∈ things, registry.Knows thing) : registry.registerAll things = registry := by
  induction things with
  | nil => rfl
  | cons thing rest ih =>
      obtain ⟨⟨hid, name, hname⟩, hrest⟩ := List.forall_mem_cons.mp h
      have hsame : (registry.register thing).2 = registry := by
        rw [register, if_pos hid, hname]
      rw [registerAll, List.foldl_cons, hsame]
      exact ih hrest

theorem registerAll_knows (registry : Registry) {things : List Registered} {thing : Registered}
    (hmem : thing ∈ things) (hid : thing.hasIdentity = true) : (registry.registerAll things).Knows thing := by
  induction things generalizing registry with
  | nil => cases hmem
  | cons first rest ih =>
      rcases List.mem_cons.mp hmem with rfl | hmem
      · exact (register_knows registry hid).mono (registerAll_extends _ rest)
      · exact ih (registry.register first).2 hmem

-- ---------------------------------------------------------------------------
-- References
-- ---------------------------------------------------------------------------

theorem reference_eq {registry : Registry} {thing : Registered} {name : String} (hid : thing.hasIdentity = true)
    (h : registry.nameOf? thing = some name) : registry.reference thing = registry.qualifier ++ "." ++ name := by
  simp only [reference, register, if_pos hid, h]
  rfl

theorem reference_extends {earlier later : Registry} {thing : Registered} (h : earlier.Knows thing)
    (hext : later.Extends earlier) : later.reference thing = earlier.reference thing := by
  obtain ⟨hid, name, hname⟩ := h
  rw [reference_eq hid hname, reference_eq hid (hext.nameOf? thing name hid hname), hext.qualifier]

theorem mem_of_nameOf? {registry : Registry} {thing : Registered} {name : String}
    (h : registry.nameOf? thing = some name) : (name, thing) ∈ registry.entries := by
  obtain ⟨⟨found, other⟩, hfind, rfl⟩ := Option.map_eq_some_iff.mp h
  have hthing := List.find?_some hfind
  simp only [decide_eq_true_eq] at hthing
  subst hthing
  exact List.mem_of_find?_eq_some hfind

/-- Different things have different references. -/
theorem reference_injective {registry : Registry} (hlawful : registry.Lawful) {a b : Registered}
    (ha : registry.Knows a) (hb : registry.Knows b) (h : registry.reference a = registry.reference b) : a = b := by
  obtain ⟨hid, name, hname⟩ := ha
  obtain ⟨hid', name', hname'⟩ := hb
  rw [reference_eq hid hname, reference_eq hid' hname'] at h
  obtain rfl := append_left_injective h
  exact congrArg Prod.snd
    (List.inj_on_of_nodup_map hlawful.nodup (mem_of_nameOf? hname) (mem_of_nameOf? hname') rfl)

/-- References to values end in a digit. -/
theorem reference_value {registry : Registry} (hlawful : registry.Lawful) {v : Value}
    (h : registry.Knows (.value v)) :
    ∃ c, (registry.reference (.value v)).toList.getLast? = some c ∧ c.isDigit = true := by
  obtain ⟨hid, name, hname⟩ := h
  obtain ⟨base, n, heq⟩ := hlawful.numbered _ (mem_of_nameOf? hname) v rfl
  have hdigits := Number.toDigits_all_isDigit n
  refine ⟨(Nat.toDigits 10 n).getLast Nat.toDigits_ne_nil, ?_, hdigits _ (List.getLast_mem _)⟩
  rw [reference_eq hid hname]
  simp only at heq
  simp only [heq, String.toList_append, Number.toList_toString, ← List.append_assoc]
  rw [List.getLast?_append_of_ne_nil _ Nat.toDigits_ne_nil, List.getLast?_eq_some_getLast]

end Registry

end SchemaAlgebra
