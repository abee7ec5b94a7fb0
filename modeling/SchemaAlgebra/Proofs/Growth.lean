-- SUMMARY: No operation of the algebra takes anything away from a space, whatever it is given.
import SchemaAlgebra.Proofs.Composition

/-!
# Growth

Operations intern nodes and note events, and do nothing else to a space. So
whatever happens later in a run, what was found before is still there, and what
is known of the space at the end of a run is known of every space on the way.
-/

namespace SchemaAlgebra

namespace SpaceM

variable {α β : Type}

/-- A computation that only adds to a space. -/
def Grows (x : SpaceM α) : Prop :=
  ∀ space : Space, space.Tidy → (x.exec space).2.Tidy ∧ (x.exec space).2.Extends space

theorem Grows.pure (a : α) : (Pure.pure a : SpaceM α).Grows := fun space h => ⟨h, .refl space⟩

theorem Grows.throw (error : SchemaError) : (MonadExcept.throw error : SpaceM α).Grows :=
  fun space h => ⟨h, .refl space⟩

theorem Grows.bind {x : SpaceM α} {f : α → SpaceM β} (hx : x.Grows) (hf : ∀ a, (f a).Grows) : (x >>= f).Grows := by
  intro space h
  obtain ⟨htidy, hext⟩ := hx space h
  rw [exec_bind]
  rcases hout : x.exec space with ⟨_ | a, later⟩
  · rw [hout] at htidy hext
    exact ⟨htidy, hext⟩
  · rw [hout] at htidy hext
    obtain ⟨htidy', hext'⟩ := hf a later htidy
    exact ⟨htidy', hext'.trans hext⟩

theorem Grows.get : (MonadState.get : SpaceM Space).Grows := fun space h => ⟨h, .refl space⟩

theorem Grows.note (event : Event) : (SpaceM.note event).Grows := fun _ h =>
  ⟨⟨h.nodup, h.named⟩, ⟨rfl, rfl, .refl _, fun _ h => h, fun _ h => List.mem_cons_of_mem _ h,
    .of_subset rfl fun _ h => h⟩⟩

theorem Grows.intern (content : Content Node) (caption : Caption) : (SpaceM.intern content caption).Grows :=
  fun _ h => h.intern content caption

/-- So nothing that is put together from these steps takes anything away. -/
theorem Compositional.grows : Compositional Grows where
  pure := .pure
  throw error _ := .throw error
  bind := .bind
  look _ h := .bind .get h
  note := .note
  intern content caption _ := .intern content caption

theorem Grows.reducible : SpaceM.reducible.Grows := Compositional.reducible .grows

end SpaceM

end SchemaAlgebra
