-- SUMMARY: What the entries of a map say without the help of the space: it is decided before anything is made.
import SchemaAlgebra.Definition.Reader
import SchemaAlgebra.Proofs.Computation

/-!
# Entries

Flags, numbers, names of axes and captions are read off the entries of a map
alone. Such a reading is a result or a refusal from the start: it neither asks the
space for anything nor does anything to it, so it can be carried out anywhere.
-/

namespace SchemaAlgebra

-- ---------------------------------------------------------------------------
-- Decided computations
-- ---------------------------------------------------------------------------

namespace SpaceM

variable {α β : Type}

theorem pure_injective {a b : α} (h : (Pure.pure a : SpaceM α) = Pure.pure b) : a = b :=
  Except.ok.inj (congrArg (fun x : SpaceM α => (x.exec (.new 0 .standard)).1) h)

theorem parseError_ne_pure {reason : ParseError} {a : α} : (parseError reason : SpaceM α) ≠ Pure.pure a :=
  fun h => nomatch congrArg (fun x : SpaceM α => (x.exec (.new 0 .standard)).1) h

/-- A computation that is a result or a refusal, whatever the space. -/
inductive Decided : SpaceM α → Prop where
  | result (a : α) : Decided (Pure.pure a)
  | refusal (reason : ParseError) : Decided (parseError reason)

theorem Decided.bind {x : SpaceM α} {f : α → SpaceM β} (hx : Decided x) (hf : ∀ a, Decided (f a)) :
    Decided (x >>= f) := by
  cases hx with
  | result a => exact hf a
  | refusal reason => exact .refusal reason

/-- Before a computation that succeeds, what is decided is a result, and the space is as it was. -/
theorem Decided.exec_bind {x : SpaceM α} {f : α → SpaceM β} {space : Space} {b : β} (hx : Decided x)
    (h : ((x >>= f).exec space).1 = .ok b) : ∃ a, x = Pure.pure a ∧ (x >>= f).exec space = (f a).exec space := by
  cases hx with
  | result a => exact ⟨a, rfl, rfl⟩
  | refusal reason => cases h

/-- The same computation, or two refusals. -/
inductive Restated : SpaceM α → SpaceM α → Prop where
  | same (x : SpaceM α) : Restated x x
  | refused (reason reason' : ParseError) : Restated (parseError reason) (parseError reason')

theorem Restated.bind {x y : SpaceM α} {f g : α → SpaceM β} (h : Restated x y) (hx : Decided x)
    (hfg : ∀ a, Restated (f a) (g a)) : Restated (x >>= f) (y >>= g) := by
  cases h with
  | refused reason reason' => exact .refused reason reason'
  | same =>
      cases hx with
      | result a => exact hfg a
      | refusal reason => exact .refused reason reason

end SpaceM

-- ---------------------------------------------------------------------------
-- Entries
-- ---------------------------------------------------------------------------

namespace Definition

open SpaceM (Decided)

theorem optionalText_decided (key : String) (entries : Entries) : Decided (optionalText key entries) := by
  unfold optionalText
  split
  · exact .result _
  · exact .result _
  · exact .refusal _

theorem optionalFlag_decided (key : String) (entries : Entries) : Decided (optionalFlag key entries) := by
  unfold optionalFlag
  split
  · exact .result _
  · exact .result _
  · exact .refusal _

theorem checkEntries_decided (kind : Kind) (allowed : List String) (entries : Entries) :
    Decided (checkEntries kind allowed entries) := by
  unfold checkEntries
  split
  · exact .refusal _
  · exact (optionalText_decided _ _).bind fun _ => (optionalText_decided _ _).bind fun _ => .result _

theorem entriesOf_decided (kind : Kind) (d : Definition) : Decided (entriesOf kind d) := by
  unfold entriesOf
  split
  · exact .result _
  · exact .refusal _

theorem requiredEntry_decided (kind : Kind) (key : String) (entries : Entries) :
    Decided (requiredEntry kind key entries) := by
  unfold requiredEntry
  split
  · exact .result _
  · exact .refusal _

theorem requiredNumber_decided (kind : Kind) (key : String) (entries : Entries) :
    Decided (requiredNumber kind key entries) := by
  unfold requiredNumber
  refine (requiredEntry_decided _ _ _).bind fun d => ?_
  dsimp only
  split
  · split
    · exact .refusal _
    · exact .result _
  · split
    · exact .refusal _
    · exact .result _
  · exact .refusal _

theorem readDomainName_decided (name : String) : Decided (readDomainName name) := by
  unfold readDomainName
  split
  · exact .result _
  · exact .refusal _

theorem divisorOf_decided (n : Number) : Decided (divisorOf n) := by
  unfold divisorOf
  split
  · split
    · exact .result _
    · exact .refusal _
  · exact .refusal _

theorem readAxis_decided (implied : BoundAxis) (entries : Entries) : Decided (readAxis implied entries) := by
  unfold readAxis
  refine (optionalText_decided _ _).bind fun name => ?_
  split
  · exact .result _
  · split
    · exact .result _
    · exact .refusal _

theorem readBound_decided (kind : Kind) (implied : BoundAxis) (d : Definition) :
    Decided (readBound kind implied d) := by
  unfold readBound
  split
  · split
    · exact .refusal _
    · exact .result _
  · exact (entriesOf_decided _ _).bind fun _ => (checkEntries_decided _ _ _).bind fun _ =>
      (requiredNumber_decided _ _ _).bind fun _ => (optionalFlag_decided _ _).bind fun _ =>
        (readAxis_decided _ _).bind fun _ => .result _

theorem compilePattern_decided (source flags : String) : Decided (compilePattern source flags) := by
  unfold compilePattern
  split
  · exact .result _
  · exact .refusal _

-- ---------------------------------------------------------------------------
-- One entry
-- ---------------------------------------------------------------------------

variable [Behaviour]

/-- The roots at a key are those of the entry that is found there. -/
theorem rootsAt_eq_lookup (key : String) (entries : Entries) :
    rootsAt key entries = (entries.lookup key).elim (pure []) rootsIn := by
  induction entries with
  | nil => rfl
  | cons entry rest ih =>
      obtain ⟨k, d⟩ := entry
      rw [List.lookup_cons, rootsAt]
      by_cases hk : key = k
      · rw [if_pos hk, beq_iff_eq.mpr hk]
        rfl
      · rw [if_neg hk, beq_false_of_ne hk]
        exact ih

theorem rootAt_eq_lookup (key : String) (entries : Entries) :
    rootAt key entries = (entries.lookup key).elim (pure none) fun d => do return some (← readRoot d) := by
  induction entries with
  | nil => rfl
  | cons entry rest ih =>
      obtain ⟨k, d⟩ := entry
      rw [List.lookup_cons, rootAt]
      by_cases hk : key = k
      · rw [if_pos hk, beq_iff_eq.mpr hk]
        rfl
      · rw [if_neg hk, beq_false_of_ne hk]
        exact ih

theorem refinementsAt_eq_lookup (kind : Kind) (axis : BoundAxis) (entries : Entries) :
    refinementsAt kind axis entries =
      (entries.lookup kind.name).elim (pure []) fun d => refinementsAt kind axis [(kind.name, d)] := by
  induction entries with
  | nil => rfl
  | cons entry rest ih =>
      obtain ⟨k, d⟩ := entry
      rw [List.lookup_cons]
      by_cases hk : kind.name = k
      · subst hk
        rw [beq_self_eq_true]
        cases d <;> simp [refinementsAt]
      · rw [beq_false_of_ne hk]
        cases d <;> simp [refinementsAt, hk, ih]

end Definition

end SchemaAlgebra
