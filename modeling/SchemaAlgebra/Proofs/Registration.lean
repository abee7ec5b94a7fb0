-- SUMMARY: Sequences of registrations: the names they give go on resolving, and the search for them ends.
import SchemaAlgebra.Proofs.Naming

/-!
# Registration

Names are built from base names and counters, so a thing can ask for a name that
was numbered for another. Whatever is registered in whatever order, a name stands
for what it was given to and for nothing else. Every number that a counter counted
belongs to a name, so a counter never passes the number of names, and runs over
only where there are as many names as 32 bits can count.
-/

namespace SchemaAlgebra.Registry

-- ---------------------------------------------------------------------------
-- The search for a name
-- ---------------------------------------------------------------------------

/-- The number that the search for a name of a thing starts with. -/
def nextNumber (registry : Registry) (thing : Registered) : Nat :=
  (registry.uses.read thing.baseName.1).value.toNat + 1

/-- The number of the name that a thing gets. -/
def nameNumber (registry : Registry) (thing : Registered) : Nat :=
  firstFree registry.entries thing.baseName.1 thing.baseName.2 (registry.size + 1) (registry.nextNumber thing)

/-- The name that the search for a thing looks at after `k` others. -/
def tried (registry : Registry) (thing : Registered) (k : Nat) : String :=
  candidate thing.baseName.1 thing.baseName.2 (registry.nextNumber thing + k)

/-- Some search for a name counted past the last number of 32 bits. -/
def Overflowed (registry : Registry) : Prop := ∃ base, (registry.uses.read base).overflowed = true

/-- The search passes over taken names only. -/
theorem taken_of_lt_firstFree {entries : List (String × Registered)} {base : String} {numbered : Bool}
    {fuel n i : Nat} (hn : n ≤ i) (hi : i < firstFree entries base numbered fuel n) :
    (entries.lookup (candidate base numbered i)).isSome = true := by
  induction fuel generalizing n with
  | zero => exact absurd hi (Nat.not_lt.mpr hn)
  | succ fuel ih =>
      unfold firstFree at hi
      split at hi
      · rename_i htaken
        rcases Nat.eq_or_lt_of_le hn with rfl | hlt
        · exact htaken
        · exact ih hlt hi
      · exact absurd hi (Nat.not_lt.mpr hn)

/-- The two forms of a name agree only if their numbers do. -/
theorem candidate_inj_number {base : String} {numbered numbered' : Bool} {m n : Nat} (hm : 1 ≤ m) (hn : 1 ≤ n)
    (h : candidate base numbered m = candidate base numbered' n) : m = n := by
  have hform (flag : Bool) {k : Nat} (hk : 1 < k) : candidate base flag k = candidate base true k := by
    simp [candidate, hk]
  rcases Nat.eq_or_lt_of_le hm with rfl | hm'
  · rcases Nat.eq_or_lt_of_le hn with rfl | hn'
    · rfl
    · exact candidate_injective le_rfl hn (h.trans ((hform numbered' hn').trans (hform numbered hn').symm))
  · exact candidate_injective hm hn (((hform numbered' hm').trans (hform numbered hm').symm).trans h)

/-- As many numbers in a row as have taken names, there are names. -/
theorem le_size_of_taken {registry : Registry} {base : String} {first k : Nat} (hfirst : 1 ≤ first)
    (h : ∀ i < k, ∃ numbered, candidate base numbered (first + i) ∈ registry.entries.map Prod.fst) :
    k ≤ registry.size := by
  choose form hform using h
  let names := (List.range k).pmap (fun i hi => candidate base (form i hi) (first + i))
    fun i hi => List.mem_range.mp hi
  have hnodup : names.Nodup := by
    refine List.nodup_range.pmap fun i _ j _ heq => ?_
    have := candidate_inj_number (by omega) (by omega) heq
    omega
  have hsubset : names ⊆ registry.entries.map Prod.fst := by
    intro name hname
    obtain ⟨i, hi, rfl⟩ := List.mem_pmap.mp hname
    exact hform i (List.mem_range.mp hi)
  simpa [names, size] using (List.subperm_of_subset hnodup hsubset).length_le

theorem mem_of_isSome_lookup {registry : Registry} {name : String}
    (h : (registry.entries.lookup name).isSome = true) : name ∈ registry.entries.map Prod.fst := by
  obtain ⟨thing, hthing⟩ := Option.isSome_iff_exists.mp h
  obtain ⟨before, after, hsplit, -⟩ := List.lookup_eq_some_iff.mp hthing
  rw [hsplit]
  simp

/-- Naming a thing moves the counter of its base name. -/
theorem read_allocate (registry : Registry) (thing : Registered) (base : String) :
    (registry.allocate thing).2.uses.read base = if base = thing.baseName.1 then
      (registry.uses.read thing.baseName.1).reach (registry.nameNumber thing) else registry.uses.read base :=
  Counters.read_write _ _ _ base

theorem overflowed_allocate (registry : Registry) (thing : Registered) :
    (registry.allocate thing).2.Overflowed ↔ registry.Overflowed ∨ UInt32.size ≤ registry.nameNumber thing := by
  constructor
  · rintro ⟨base, hbase⟩
    rw [read_allocate] at hbase
    split at hbase
    · exact (Counter.reach_overflowed.mp hbase).imp_left fun h => ⟨_, h⟩
    · exact .inl ⟨base, hbase⟩
  · rintro (⟨base, hbase⟩ | hsize)
    · refine ⟨base, ?_⟩
      rw [read_allocate]
      split
      · rename_i heq
        exact Counter.reach_overflowed.mpr (.inl (heq ▸ hbase))
      · exact hbase
    · refine ⟨thing.baseName.1, ?_⟩
      rw [read_allocate, if_pos rfl]
      exact Counter.reach_overflowed.mpr (.inr hsize)

theorem isPrefixOf?_append (before after : List Char) : before.isPrefixOf? (before ++ after) = some after := by
  induction before with
  | nil => rfl
  | cons c rest ih => simp [List.isPrefixOf?, ih]

theorem resolve?_qualify (registry : Registry) (name : String) :
    registry.resolve? (registry.qualify name) = registry.entries.lookup name := by
  have hname : registry.nameIn? (registry.qualify name) = some name := by
    simp only [nameIn?, qualify, String.toList_append, List.append_assoc, isPrefixOf?_append]
    exact congrArg some (String.ofList_toList ..)
  rw [resolve?, hname]
  rfl

-- ---------------------------------------------------------------------------
-- Names that were given
-- ---------------------------------------------------------------------------

/-- A name stands for a thing, which is known by it if it has an identity. -/
structure Issued (registry : Registry) (thing : Registered) (name : String) : Prop where
  lookup : registry.entries.lookup name = some thing
  nameOf? : thing.hasIdentity = true → registry.nameOf? thing = some name

theorem lookup_of_nameOf? {registry : Registry} (h : registry.Lawful) {thing : Registered} {name : String}
    (hname : registry.nameOf? thing = some name) : registry.entries.lookup name = some thing := by
  obtain ⟨before, after, hsplit⟩ := List.mem_iff_append.mp (mem_of_nameOf? hname)
  refine List.lookup_eq_some_iff.mpr ⟨before, after, hsplit, fun entry hentry => ?_⟩
  have hnodup := h.nodup
  rw [hsplit, List.map_append, List.nodup_append] at hnodup
  have hne := hnodup.2.2 entry.1 (List.mem_map_of_mem hentry) name (by simp)
  simpa using fun heq => hne heq.symm

/-- The reference of a thing that has a name stands for the thing. -/
theorem Knows.resolve?_reference {registry : Registry} (h : registry.Lawful) {thing : Registered}
    (hknown : registry.Knows thing) : registry.resolve? (registry.reference thing) = some thing := by
  obtain ⟨hid, name, hname⟩ := hknown
  rw [reference_eq hid hname]
  exact (resolve?_qualify registry name).trans (lookup_of_nameOf? h hname)

/-- Registering gives a thing that has a name this one, and any other a name that was free. -/
theorem register_cases {registry : Registry} (h : registry.Lawful) (thing : Registered) :
    (∃ name, thing.hasIdentity = true ∧ registry.nameOf? thing = some name ∧
        registry.entries.lookup name = some thing ∧ registry.register thing = (name, registry)) ∨
      ((thing.hasIdentity = true → registry.nameOf? thing = none) ∧
        registry.entries.lookup (registry.register thing).1 = none ∧
        (registry.register thing).2.entries = ((registry.register thing).1, thing) :: registry.entries) := by
  by_cases hknown : thing.hasIdentity = true ∧ ∃ name, registry.nameOf? thing = some name
  · obtain ⟨hid, name, hname⟩ := hknown
    exact .inl ⟨name, hid, hname, lookup_of_nameOf? h hname, by simp only [register, if_pos hid, hname]⟩
  · have hnone (hid : thing.hasIdentity = true) : registry.nameOf? thing = none :=
      Option.eq_none_iff_forall_ne_some.mpr fun name hname => hknown ⟨hid, name, hname⟩
    have hnew : registry.register thing = registry.allocate thing := by
      unfold register
      split
      · rename_i name hname
        split at hname
        · rename_i hid
          rw [hnone hid] at hname
          cases hname
        · cases hname
      · rfl
    obtain ⟨n, uses, hfree, heq⟩ := allocate_eq registry thing
    rw [hnew, heq]
    exact .inr ⟨hnone, hfree, rfl⟩

/-- What registering a thing gives stands for it. -/
theorem register_issued {registry : Registry} (h : registry.Lawful) (thing : Registered) :
    (registry.register thing).2.Issued thing (registry.register thing).1 := by
  rcases register_cases h thing with ⟨name, -, hname, hlookup, heq⟩ | ⟨-, -, hentries⟩
  · rw [heq]
    exact ⟨hlookup, fun _ => hname⟩
  · constructor
    · rw [hentries, List.lookup_cons_self]
    · intro _
      rw [nameOf?, hentries, List.find?_cons_of_pos (by simp)]
      rfl

/-- Registering leaves to every name what it stands for. -/
theorem lookup_register {registry : Registry} (h : registry.Lawful) {thing : Registered} {name : String}
    (hlookup : registry.entries.lookup name = some thing) (other : Registered) :
    (registry.register other).2.entries.lookup name = some thing := by
  rcases register_cases h other with ⟨_, -, -, -, heq⟩ | ⟨-, hfree, hentries⟩
  · rw [heq]
    exact hlookup
  · have hne : name ≠ (registry.register other).1 := by
      rintro rfl
      rw [hlookup] at hfree
      cases hfree
    rw [hentries, List.lookup_cons, beq_false_of_ne hne]
    exact hlookup

theorem Issued.register {registry : Registry} (h : registry.Lawful) {thing : Registered} {name : String}
    (hissued : registry.Issued thing name) (other : Registered) :
    (registry.register other).2.Issued thing name :=
  ⟨lookup_register h hissued.lookup other,
    fun hid => (register_extends registry other).nameOf? thing name hid (hissued.nameOf? hid)⟩

theorem Issued.registerAll {registry : Registry} (h : registry.Lawful) {thing : Registered} {name : String}
    (hissued : registry.Issued thing name) (things : List Registered) :
    (registry.registerAll things).Issued thing name := by
  induction things generalizing registry with
  | nil => exact hissued
  | cons other rest ih => exact ih (register_lawful h other) (hissued.register h other)

/-- Every number that a counter passed belongs to a name, of either form, and a counter ran over only if there are
enough names for all numbers of 32 bits. -/
structure Counted (registry : Registry) : Prop where
  taken : ∀ base, (registry.uses.read base).overflowed = false → ∀ i, 1 ≤ i →
    i ≤ (registry.uses.read base).value.toNat → ∃ numbered, candidate base numbered i ∈ registry.entries.map Prod.fst
  full : registry.Overflowed → UInt32.size ≤ registry.size + 1

/-- All numbers before that of a new name are taken. -/
theorem Counted.taken_of_lt {registry : Registry} (h : registry.Counted) {thing : Registered}
    (hfits : (registry.uses.read thing.baseName.1).overflowed = false) {i : Nat} (hi : 1 ≤ i)
    (hlt : i < registry.nameNumber thing) :
    ∃ numbered, candidate thing.baseName.1 numbered i ∈ registry.entries.map Prod.fst := by
  by_cases hused : i ≤ (registry.uses.read thing.baseName.1).value.toNat
  · exact h.taken _ hfits i hi hused
  · exact ⟨thing.baseName.2, mem_of_isSome_lookup (taken_of_lt_firstFree (Nat.not_le.mp hused) hlt)⟩

/-- A search counts past the last number only where there are as many names as numbers. -/
theorem Counted.full_of_allocate {registry : Registry} (h : registry.Counted) {thing : Registered}
    (hover : (registry.allocate thing).2.Overflowed) : UInt32.size ≤ registry.size + 1 := by
  rcases (overflowed_allocate registry thing).mp hover with hold | hsize
  · exact h.full hold
  cases hold : (registry.uses.read thing.baseName.1).overflowed with
  | true => exact h.full ⟨_, hold⟩
  | false =>
      have hall : UInt32.size - 1 ≤ registry.size :=
        le_size_of_taken le_rfl fun i hi => h.taken_of_lt hold (Nat.le_add_right 1 i) (by omega)
      exact Nat.sub_le_iff_le_add.mp hall

/-- A search counts on to the number of the name that it gives; all numbers on the way are taken. -/
theorem Counted.allocate {registry : Registry} (h : registry.Counted) (thing : Registered) :
    (registry.allocate thing).2.Counted where
  taken := by
    intro base hfits i hi hin
    rw [read_allocate] at hfits hin
    by_cases hbase : base = thing.baseName.1
    · subst hbase
      rw [if_pos rfl] at hfits hin
      obtain ⟨hold, -, hvalue⟩ := Counter.reach_eq hfits
      rcases Nat.eq_or_lt_of_le (hin.trans_eq hvalue) with rfl | hlt
      · exact ⟨thing.baseName.2, List.mem_cons_self⟩
      · exact (h.taken_of_lt hold hi hlt).imp fun _ => List.mem_cons_of_mem _
    · rw [if_neg hbase] at hfits hin
      exact (h.taken base hfits i hi hin).imp fun _ => List.mem_cons_of_mem _
  full := fun hover => (h.full_of_allocate hover).trans (Nat.le_succ _)

theorem Counted.register {registry : Registry} (h : registry.Counted) (thing : Registered) :
    (registry.register thing).2.Counted := by
  unfold Registry.register
  split
  · exact h
  · exact h.allocate thing

theorem Counted.registerAll {registry : Registry} (h : registry.Counted) (things : List Registered) :
    (registry.registerAll things).Counted := by
  induction things generalizing registry with
  | nil => exact h
  | cons thing rest ih => exact ih (h.register thing)

end SchemaAlgebra.Registry
