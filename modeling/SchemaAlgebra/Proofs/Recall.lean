-- SUMMARY: Two runs of which one was over when the other began: what one came to, the other comes to as well.
import SchemaAlgebra.Proofs.Commutation
import SchemaAlgebra.Proofs.Entries
import SchemaAlgebra.Proofs.References

/-!
# Recall

Two computations in one space are compared where one was over before the other began.
The later run finds whatever the earlier one found. The earlier run can only miss what
a reference came to stand for after it: then it was refused for want of that.
-/

namespace SchemaAlgebra

open Space (Twins Abreast)

namespace SpaceM

variable {α β γ δ : Type}

-- ---------------------------------------------------------------------------
-- Successive runs
-- ---------------------------------------------------------------------------

/-- Two runs, by where they end and where they are: one was over when the other began. -/
def Successive (left right space other : Space) : Prop :=
  other.registry.Descends left.registry ∨ space.registry.Descends right.registry

/-- One of several texts stands for something where a run ends, and for nothing where another one is. -/
def Unresolved (texts : String → Prop) (left last : Space) : Prop :=
  ∃ text, texts text ∧ (left.registry.resolve? text).isSome = true ∧ last.registry.resolve? text = none

/-- A result that goes with a given one, or a refusal that is excused. -/
inductive Recalled (Q : α → β → Prop) (excuse : Prop) (a : α) : Except SchemaError β → Prop where
  | ok {b : β} (h : Q a b) : Recalled Q excuse a (.ok b)
  | refused {error : SchemaError} (h : excuse) : Recalled Q excuse a (.error error)

/-- What one computation gives on the way to a space, another gives on the way to a second space, unless a text that
the first could resolve stands for nothing there. -/
def Recalls (texts : String → Prop) (left right : Space) (x : SpaceM α) (y : SpaceM β) (Q : α → β → Prop) : Prop :=
  ∀ (space other : Space) (a : α), space.Orderly → other.Orderly → left.Onward (x.exec space).2 →
    right.Onward (y.exec other).2 → Successive left right space other → (x.exec space).1 = .ok a →
      Recalled Q (Unresolved texts left (y.exec other).2) a (y.exec other).1

/-- Each of two computations gives what the other one does, and neither takes anything away. -/
structure Echoes (texts : String → Prop) (left right : Space) (x : SpaceM α) (y : SpaceM β) (Q : α → β → Prop) :
    Prop where
  proceeds : x.Proceeds
  proceeds' : y.Proceeds
  forth : Recalls texts left right x y Q
  back : Recalls texts right left y x fun b a => Q a b

section

variable {left right space other later later' : Space} {text : String} {thing : Registered}

theorem Successive.grow (h : Successive left right space other) (hs : later.registry.Descends space.registry)
    (ho : later'.registry.Descends other.registry) : Successive left right later later' :=
  h.imp ho.trans hs.trans

/-- Of the registries on the way, one is later than the other. -/
theorem Successive.comparable (h : Successive left right space other) (hleft : left.registry.Descends space.registry)
    (hright : right.registry.Descends other.registry) :
    other.registry.Descends space.registry ∨ space.registry.Descends other.registry :=
  h.imp (·.trans hleft) (·.trans hright)

end

-- ---------------------------------------------------------------------------
-- One direction
-- ---------------------------------------------------------------------------

section

variable {texts : String → Prop} {left right : Space} {P : α → β → Prop} {Q : γ → δ → Prop} {x : SpaceM α} {y : SpaceM β}

theorem Recalled.imp {P' : γ → β → Prop} {excuse : Prop} {a : α} {c : γ} {out : Except SchemaError β}
    (h : Recalled P excuse a out) (hP : ∀ b, P a b → P' c b) : Recalled P' excuse c out := by
  cases h with
  | ok h => exact .ok (hP _ h)
  | refused h => exact .refused h

theorem Recalls.pure {a : α} {b : β} (h : P a b) : Recalls texts left right (Pure.pure a) (Pure.pure b) P := by
  rintro space other _ _ _ _ _ _ ⟨⟩
  exact .ok h

/-- What was refused can come out anyhow. -/
theorem Recalls.refuse (reason : ParseError) (y : SpaceM β) :
    Recalls texts left right (SpaceM.parseError reason : SpaceM α) y P := by
  rintro space other _ _ _ _ _ _ ⟨⟩

theorem Recalls.imp {P' : α → β → Prop} (h : Recalls texts left right x y P) (hP : ∀ a b, P a b → P' a b) :
    Recalls texts left right x y P' :=
  fun space other a hs ho hleft hright hruns ha => (h space other a hs ho hleft hright hruns ha).imp (hP a)

/-- The rest of a computation only adds to the space, so that its end is still ahead after the first step. -/
theorem Recalls.bind {f : α → SpaceM γ} {g : β → SpaceM δ} (h : Recalls texts left right x y P) (hx : x.Proceeds)
    (hy : y.Proceeds) (hf : ∀ a, (f a).Proceeds) (hg : ∀ b, (g b).Proceeds)
    (hfg : ∀ a b, P a b → Recalls texts left right (f a) (g b) Q) :
    Recalls texts left right (x >>= f) (y >>= g) Q := by
  intro space other c hs ho hleft hright hruns hc
  obtain ⟨hmid, honward⟩ := hx space hs
  obtain ⟨hmid', honward'⟩ := hy other ho
  have hrecalls := fun a => h space other a hs ho
  rw [exec_bind] at hleft hright hc
  rw [exec_bind]
  generalize x.exec space = first at hmid honward hrecalls hleft hc
  generalize y.exec other = first' at hmid' honward' hrecalls hright ⊢
  rcases first with ⟨error | a, mid⟩
  · cases hc
  · have hahead : left.Onward mid := hleft.trans (hf a mid hmid).2
    rcases first' with ⟨error | b, mid'⟩
    · cases hrecalls a hahead hright hruns rfl with
      | refused hexcuse => exact .refused hexcuse
    · cases hrecalls a hahead (hright.trans (hg b mid' hmid').2) hruns rfl with
      | ok hab =>
          exact hfg a b hab mid mid' c hmid hmid' hleft hright (hruns.grow honward.registry honward'.registry) hc

/-- What keeps in step gives the same at any two times. -/
theorem Recalls.of_lockstep (h : Lockstep left right x y P) : Recalls texts left right x y P := by
  intro space other a hs ho hleft hright _ ha
  have hagree := h.agree space other hs.tidy ho.tidy hleft.extension hright.extension
  rw [ha] at hagree
  generalize (y.exec other).1 = out at hagree ⊢
  cases hagree with
  | ok hab => exact .ok hab

theorem Recalls.of_lockstep_back (h : Lockstep left right x y P) : Recalls texts right left y x fun b a => P a b := by
  intro other space b ho hs hright hleft _ hb
  have hagree := h.agree space other hs.tidy ho.tidy hleft.extension hright.extension
  rw [hb] at hagree
  generalize (x.exec space).1 = out at hagree ⊢
  cases hagree with
  | ok hab => exact .ok hab

end

-- ---------------------------------------------------------------------------
-- Both directions
-- ---------------------------------------------------------------------------

namespace Echoes

variable {texts : String → Prop} {left right : Space} {P : α → β → Prop} {Q : γ → δ → Prop} {x : SpaceM α} {y : SpaceM β}

theorem pure {a : α} {b : β} (h : P a b) : Echoes texts left right (Pure.pure a) (Pure.pure b) P :=
  ⟨Compositional.proceeds.pure a, Compositional.proceeds.pure b, .pure h, .pure h⟩

theorem parseError (reason reason' : ParseError) :
    Echoes texts left right (SpaceM.parseError reason : SpaceM α) (SpaceM.parseError reason' : SpaceM β) P :=
  ⟨Compositional.proceeds.throw _ rfl, Compositional.proceeds.throw _ rfl, .refuse reason _, .refuse reason' _⟩

theorem imp {P' : α → β → Prop} (h : Echoes texts left right x y P) (hP : ∀ a b, P a b → P' a b) :
    Echoes texts left right x y P' where
  proceeds := h.proceeds
  proceeds' := h.proceeds'
  forth := h.forth.imp hP
  back := h.back.imp fun b a => hP a b

theorem bind {f : α → SpaceM γ} {g : β → SpaceM δ} (h : Echoes texts left right x y P) (hf : ∀ a, (f a).Proceeds)
    (hg : ∀ b, (g b).Proceeds) (hfg : ∀ a b, P a b → Echoes texts left right (f a) (g b) Q) :
    Echoes texts left right (x >>= f) (y >>= g) Q where
  proceeds := h.proceeds.bind hf
  proceeds' := h.proceeds'.bind hg
  forth := h.forth.bind h.proceeds h.proceeds' hf hg fun a b hab => (hfg a b hab).forth
  back := h.back.bind h.proceeds' h.proceeds hg hf fun b a hab => (hfg a b hab).back

theorem map {f : α → γ} {g : β → δ} (h : Echoes texts left right x y P) (hfg : ∀ a b, P a b → Q (f a) (g b)) :
    Echoes texts left right (do return f (← x)) (do return g (← y)) Q :=
  h.bind (fun _ => Compositional.proceeds.pure _) (fun _ => Compositional.proceeds.pure _)
    fun a b hab => .pure (hfg a b hab)

theorem ofLockstep (h : Lockstep left right x y P) (hx : x.Proceeds) (hy : y.Proceeds) :
    Echoes texts left right x y P :=
  ⟨hx, hy, .of_lockstep h, .of_lockstep_back h⟩

/-- What the first of two computations comes to by itself. -/
theorem settles (h : Echoes texts left right x y P) {R : α → Prop} (hx : ∀ (space : Space) (a : α), space.Orderly →
    left.Onward (x.exec space).2 → (x.exec space).1 = .ok a → R a) :
    Echoes texts left right x y fun a b => P a b ∧ R a where
  proceeds := h.proceeds
  proceeds' := h.proceeds'
  forth := fun space other a hs ho hleft hright hruns ha =>
    (h.forth space other a hs ho hleft hright hruns ha).imp fun _ hab => ⟨hab, hx space a hs hleft ha⟩
  back := by
    intro space other b hs ho hright hleft hruns hb
    have hrecalled := h.back space other b hs ho hright hleft hruns hb
    have hsettled := fun a => hx other a ho hleft
    generalize (x.exec other).1 = out at hrecalled hsettled ⊢
    cases hrecalled with
    | ok hab => exact .ok ⟨hab, hsettled _ rfl⟩
    | refused hexcuse => exact .refused hexcuse

theorem along (h : Echoes texts left right x y P) {R : α → Prop} (hx : Along left x R) :
    Echoes texts left right x y fun a b => P a b ∧ R a :=
  h.settles fun space a hs hleft ha => hx.result space hs.tidy hleft.extension a ha

/-- What was given can be given again at any later time. -/
theorem recalls (h : Echoes texts left right x y P) (space other : Space) (a : α) (hs : space.Orderly)
    (ho : other.Orderly) (hleft : left.Onward (x.exec space).2) (hright : right.Onward (y.exec other).2)
    (hlater : other.registry.Descends left.registry) (ha : (x.exec space).1 = .ok a) :
    ∃ b, (y.exec other).1 = .ok b ∧ P a b := by
  have hrecalled := h.forth space other a hs ho hleft hright (.inl hlater) ha
  have hlawful := (hleft.registry.trans (h.proceeds space hs).2.registry).lawful hs.lawful
  have hdescends := (h.proceeds' other ho).2.registry.trans hlater
  generalize y.exec other = out at hrecalled hdescends ⊢
  obtain ⟨result, last⟩ := out
  cases hrecalled with
  | ok hab => exact ⟨_, rfl, hab⟩
  | refused hexcuse =>
      obtain ⟨text, -, hsome, hnone⟩ := hexcuse
      obtain ⟨thing, hresolve⟩ := Option.isSome_iff_exists.mp hsome
      rw [hdescends.resolve? hlawful hresolve] at hnone
      cases hnone

end Echoes

-- ---------------------------------------------------------------------------
-- Decided computations
-- ---------------------------------------------------------------------------

section

variable {texts : String → Prop} {left right : Space} {P : α → α → Prop} {Q : γ → δ → Prop} {x y : SpaceM α}

theorem Restated.echoes (h : Restated x y) (hx : Echoes texts left right x x P) : Echoes texts left right x y P := by
  cases h with
  | same => exact hx
  | refused reason reason' => exact .parseError reason reason'

theorem Restated.echoes_bind (h : Restated x y) (hx : Decided x) {f : α → SpaceM γ} {g : α → SpaceM δ}
    (hfg : ∀ a, Echoes texts left right (f a) (g a) Q) : Echoes texts left right (x >>= f) (y >>= g) Q := by
  cases h with
  | refused reason reason' => exact .parseError reason reason'
  | same =>
      cases hx with
      | result a => exact hfg a
      | refusal reason => exact .parseError reason reason

/-- What is decided is the same at any time. -/
theorem Decided.echoes_bind (hx : Decided x) {f : α → SpaceM γ} {g : α → SpaceM δ}
    (h : ∀ a, Echoes texts left right (f a) (g a) Q) : Echoes texts left right (x >>= f) (x >>= g) Q :=
  (Restated.same x).echoes_bind hx h

end

-- ---------------------------------------------------------------------------
-- Lists
-- ---------------------------------------------------------------------------

section

variable {ι κ : Type} {texts : String → Prop} {left right : Space} {f : ι → SpaceM α} {g : κ → SpaceM β}
  (hf : ∀ i, (f i).Proceeds) (hg : ∀ k, (g k).Proceeds)

theorem mapM_proceeds {f : ι → SpaceM α} (hf : ∀ i, (f i).Proceeds) (items : List ι) : (items.mapM f).Proceeds := by
  induction items with
  | nil => exact Compositional.proceeds.pure _
  | cons i rest ih =>
      rw [List.mapM_cons]
      exact (hf i).bind fun _ => ih.bind fun _ => Compositional.proceeds.pure _

/-- Items in the same order. -/
theorem Echoes.mapM {Q : α → β → Prop} {items : List ι} {items' : List κ}
    (h : List.Forall₂ (fun i k => Echoes texts left right (f i) (g k) Q) items items') :
    Echoes texts left right (items.mapM f) (items'.mapM g) (List.Forall₂ Q) := by
  induction h with
  | nil => exact .pure .nil
  | cons hitem _ ih =>
      rw [List.mapM_cons, List.mapM_cons]
      exact hitem.bind (fun _ => ih.proceeds.bind fun _ => Compositional.proceeds.pure _)
        (fun _ => ih.proceeds'.bind fun _ => Compositional.proceeds.pure _)
        fun _ _ hab => ih.map fun _ _ hrest => .cons hab hrest

/-- An item on two sides, and what it came to. -/
structure Handled (ι κ α β : Type) where
  item : ι
  item' : κ
  result : α
  result' : β

/-- Items on two sides and what they came to, each in an order of its own. -/
def Shuffled (R : ι → κ → α → β → Prop) (items : List ι) (items' : List κ) (results : List α) (results' : List β) : Prop :=
  ∃ all : List (Handled ι κ α β), items.Perm (all.map Handled.item) ∧ items'.Perm (all.map Handled.item') ∧
    results.Perm (all.map Handled.result) ∧ results'.Perm (all.map Handled.result') ∧
      ∀ r ∈ all, R r.item r.item' r.result r.result'

/-- A result that a computation came to on the way from one space to another. -/
def CameTo (space left : Space) (x : SpaceM α) (a : α) : Prop :=
  ∃ mid : Space, mid.Orderly ∧ mid.registry.Descends space.registry ∧ left.Onward (x.exec mid).2 ∧ (x.exec mid).1 = .ok a

include hf in
theorem cameTo_of_mapM {items : List ι} {space : Space} {results : List α} (hs : space.Orderly)
    (hleft : left.Onward ((items.mapM f).exec space).2) (hok : ((items.mapM f).exec space).1 = .ok results) :
    List.Forall₂ (fun i a => CameTo space left (f i) a) items results := by
  induction items generalizing space results with
  | nil =>
      cases hok
      exact .nil
  | cons i rest ih =>
      have hrest := fun a => (mapM_proceeds hf rest).bind fun others =>
        Compositional.proceeds.pure (a :: others)
      obtain ⟨hmid, honward⟩ := hf i space hs
      have hfirst : ∀ a, left.Onward ((f i).exec space).2 → ((f i).exec space).1 = .ok a →
          CameTo space left (f i) a := fun a hahead ha => ⟨space, hs, .refl _, hahead, ha⟩
      rw [List.mapM_cons, exec_bind] at hleft hok
      generalize (f i).exec space = first at hmid honward hfirst hleft hok
      rcases first with ⟨error | a, mid⟩
      · cases hok
      · dsimp only at hleft hok
        have hahead := hleft.trans (hrest a mid hmid).2
        rw [exec_bind] at hleft hok
        have hothers := fun results => @ih mid results hmid
        generalize (rest.mapM f).exec mid = second at hothers hleft hok
        rcases second with ⟨error | others, last⟩
        · cases hok
        · cases hok
          refine .cons (hfirst a hahead rfl) ((hothers others hleft rfl).imp fun _ _ hcame => ?_)
          obtain ⟨later, hlater, hdescends, hresult⟩ := hcame
          exact ⟨later, hlater, hdescends.trans honward.registry, hresult⟩

/-- Items on two sides and what they came to, in one order. -/
def Aligned (R : ι → κ → α → β → Prop) (items : List ι) (items' : List κ) (results : List α) (results' : List β) : Prop :=
  ∃ all : List (Handled ι κ α β), all.map Handled.item = items ∧ all.map Handled.item' = items' ∧
    all.map Handled.result = results ∧ all.map Handled.result' = results' ∧ ∀ r ∈ all, R r.item r.item' r.result r.result'

include hg in
/-- If all items came to something in one run, they do so in another, in the order that they have there. -/
theorem recalled_of_cameTo {R : ι → κ → α → β → Prop} {items : List ι} {items' : List κ} {results : List α}
    {space other : Space} (hcame : List.Forall₂ (fun i a => CameTo space left (f i) a) items results)
    (h : List.Forall₂ (fun i k => Recalls texts left right (f i) (g k) (R i k)) items items') (ho : other.Orderly)
    (hright : right.Onward ((items'.mapM g).exec other).2) (hruns : Successive left right space other) :
    Recalled (Aligned R items items') (Unresolved texts left ((items'.mapM g).exec other).2) results
      ((items'.mapM g).exec other).1 := by
  induction h generalizing results other with
  | nil =>
      cases hcame
      exact .ok ⟨[], rfl, rfl, rfl, rfl, List.forall_mem_nil _⟩
  | @cons i k rest rest' hitem _ ih =>
      obtain ⟨a, others, hfirst, hcameRest, rfl⟩ := List.forall₂_cons_left_iff.mp hcame
      obtain ⟨before, hbefore, hdescends, hahead, ha⟩ := hfirst
      have hrest := fun b => (mapM_proceeds hg rest').bind fun others =>
        Compositional.proceeds.pure (b :: others)
      have hrecalls := hitem before other a hbefore ho hahead
      obtain ⟨hmid, honward⟩ := hg k other ho
      rw [List.mapM_cons, exec_bind] at hright ⊢
      generalize (g k).exec other = first at hmid honward hrecalls hright ⊢
      rcases first with ⟨error | b, mid⟩
      · cases hrecalls hright (hruns.grow hdescends (.refl _)) ha with
        | refused hexcuse => exact .refused hexcuse
      · dsimp only at hright hrecalls ⊢
        have hab : R i k a b := by
          cases hrecalls (hright.trans (hrest b mid hmid).2) (hruns.grow hdescends (.refl _)) ha with
          | ok hab => exact hab
        rw [exec_bind] at hright ⊢
        have hothers := @ih others mid hcameRest hmid
        generalize (rest'.mapM g).exec mid = second at hothers hright ⊢
        rcases second with ⟨error | others', last⟩
        · cases hothers hright (hruns.grow (.refl _) honward.registry) with
          | refused hexcuse => exact .refused hexcuse
        · cases hothers hright (hruns.grow (.refl _) honward.registry) with
          | ok haligned =>
              obtain ⟨all, rfl, rfl, rfl, rfl, hall⟩ := haligned
              exact .ok ⟨⟨i, k, a, b⟩ :: all, rfl, rfl, rfl, rfl, List.forall_mem_cons.mpr ⟨hab, hall⟩⟩

include hf hg in
theorem Recalls.mapM_perm {R : ι → κ → α → β → Prop} {items middle : List ι} {items' : List κ} (hperm : items.Perm middle)
    (h : List.Forall₂ (fun i k => Recalls texts left right (f i) (g k) (R i k)) middle items') :
    Recalls texts left right (items.mapM f) (items'.mapM g) (Shuffled R items items') := by
  intro space other results hs ho hleft hright hruns hok
  have hcame := cameTo_of_mapM hf hs hleft hok
  obtain ⟨results', hcame', hresults⟩ := (congrFun₂ (@List.forall₂_comp_perm_eq_perm_comp_forall₂ _ _
    fun i a => CameTo space left (f i) a) middle results).mpr ⟨items, hperm.symm, hcame⟩
  refine (recalled_of_cameTo hg hcame' h ho hright hruns).imp ?_
  rintro _ ⟨all, rfl, rfl, rfl, rfl, hall⟩
  exact ⟨all, hperm, .refl _, hresults.symm, .refl _, hall⟩

theorem Shuffled.swap {R : ι → κ → α → β → Prop} {items : List ι} {items' : List κ} {results : List α} {results' : List β}
    (h : Shuffled (fun k i b a => R i k a b) items' items results' results) : Shuffled R items items' results results' := by
  obtain ⟨all, hitems', hitems, hresults', hresults, hall⟩ := h
  refine ⟨all.map fun r => ⟨r.item', r.item, r.result', r.result⟩, ?_, ?_, ?_, ?_, List.forall_mem_map.mpr hall⟩ <;>
    rwa [List.map_map]

include hf hg in
/-- Items in another order. -/
theorem Echoes.mapM_perm {R : ι → κ → α → β → Prop} {items middle : List ι} {items' : List κ} (hperm : items.Perm middle)
    (h : List.Forall₂ (fun i k => Echoes texts left right (f i) (g k) (R i k)) middle items') :
    Echoes texts left right (items.mapM f) (items'.mapM g) (Shuffled R items items') where
  proceeds := mapM_proceeds hf items
  proceeds' := mapM_proceeds hg items'
  forth := .mapM_perm hf hg hperm (h.imp fun _ _ => forth)
  back := by
    obtain ⟨middle', hperm', h'⟩ := (congrFun₂ (@List.forall₂_comp_perm_eq_perm_comp_forall₂ _ _
      fun k i => Echoes texts left right (f i) (g k) (R i k)) items' items).mp ⟨middle, h.flip, hperm.symm⟩
    exact (Recalls.mapM_perm hg hf hperm' (h'.imp fun _ _ => back)).imp fun _ _ => Shuffled.swap

end

end SpaceM

end SchemaAlgebra
