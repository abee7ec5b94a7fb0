-- SUMMARY: Specifications of computations in a space, and the rules to compose them.
import SchemaAlgebra.Proofs.ValidSpace

/-!
# Computations

A specification says of a computation that it keeps the space valid, what holds
of its result, and how it can fail. In spaces that are still regular afterwards it
never finds the library itself at fault, and where nothing is amiss it does not fail
at all; elsewhere texts can mean several things. It does not divide by zero anywhere.
-/

namespace SchemaAlgebra

namespace SpaceM

variable {α β : Type}

/-- The outcome of a computation, with the space after it. -/
def exec (x : SpaceM α) (space : Space) : Except SchemaError α × Space := Id.run ((ExceptT.run x).run space)

theorem exec_pure (a : α) (space : Space) : (pure a : SpaceM α).exec space = (.ok a, space) := rfl

theorem exec_bind (x : SpaceM α) (f : α → SpaceM β) (space : Space) :
    (x >>= f).exec space = match x.exec space with
      | (.ok a, later) => (f a).exec later
      | (.error error, later) => (.error error, later) := by
  change Id.run (StateT.run (ExceptT.run (x >>= f)) space) = _
  simp only [exec, ExceptT.run_bind, StateT.run_bind]
  change (match (ExceptT.run x).run space with | (out, later) => _) = _
  cases h : (ExceptT.run x).run space with
  | mk out later => cases out <;> rfl

/-- A result that is not used makes no difference to the space. -/
theorem exec_discard (x : SpaceM α) (space : Space) :
    ((do let _ ← x : SpaceM Unit).exec space).2 = (x.exec space).2 := by
  rw [exec_bind]
  rcases x.exec space with ⟨_ | _, _⟩ <;> rfl

theorem exec_get (space : Space) : (get : SpaceM Space).exec space = (.ok space, space) := rfl

theorem exec_note (event : Event) (space : Space) :
    (note event).exec space = (.ok (), { space with trace := event :: space.trace }) := rfl

/-- Whether a computation gives a result that passes a test. -/
def yields (x : SpaceM α) (space : Space) (test : α → Bool) : Bool :=
  match (x.exec space).1 with
  | .ok a => test a
  | .error _ => false

theorem yields_iff {x : SpaceM α} {space : Space} {test : α → Bool} :
    x.yields space test = true ↔ ∃ a, (x.exec space).1 = .ok a ∧ test a = true := by
  unfold yields
  cases (x.exec space).1 <;> simp

theorem yields_pure {a : α} {space : Space} {test : α → Bool} : (Pure.pure a : SpaceM α).yields space test = test a :=
  rfl

theorem yields_get {f : Space → SpaceM α} {space : Space} {test : α → Bool} :
    (MonadState.get >>= f).yields space test = (f space).yields space test :=
  rfl

theorem yields_bind {x : SpaceM α} {f : α → SpaceM β} {space : Space} {test : β → Bool} :
    (x >>= f).yields space test = true ↔
      ∃ a, (x.exec space).1 = .ok a ∧ (f a).yields (x.exec space).2 test = true := by
  unfold yields
  rw [exec_bind]
  rcases x.exec space with ⟨_ | _, _⟩ <;> simp

/-- What a computation does to a valid space. Where the space stays regular, it gives no internal error, and where
`safe` holds as well, no error. It divides by zero in no space. Where `ground` holds, no two branches of a union come to
be of one type. -/
structure Ensures (ground safe : Prop) (space : Space) (x : SpaceM α) (Q : Space → α → Prop) : Prop where
  valid : (x.exec space).2.Valid
  extension : (x.exec space).2.Extends space
  result : ∀ a, (x.exec space).1 = .ok a → Q (x.exec space).2 a
  succeeds : safe → (x.exec space).2.Regular → ∃ a, (x.exec space).1 = .ok a
  sane : (x.exec space).2.Regular → ∀ reason, (x.exec space).1 ≠ .error (.internal reason)
  distinct : ground → space.Distinct → (x.exec space).2.Distinct
  divides : (x.exec space).1 ≠ .error (.internal .divisionByZero)

variable {ground safe : Prop} {space : Space}

theorem Ensures.imp {P Q : Space → α → Prop} {x : SpaceM α} (h : Ensures ground safe space x P)
    (hpq : ∀ later a, later.Valid → later.Extends space → P later a → Q later a) : Ensures ground safe space x Q :=
  { h with result := fun a ha => hpq _ a h.valid h.extension (h.result a ha) }

/-- What two specifications say together. -/
theorem Ensures.and {safe' : Prop} {P Q : Space → α → Prop} {x : SpaceM α} (h : Ensures ground safe space x P)
    (h' : Ensures ground safe' space x Q) : Ensures ground safe' space x fun later a => P later a ∧ Q later a :=
  { h' with result := fun a ha => ⟨h.result a ha, h'.result a ha⟩ }

/-- What a specification says, with the run that gives the result. -/
theorem Ensures.traced {Q : Space → α → Prop} {x : SpaceM α} (h : Ensures ground safe space x Q) :
    Ensures ground safe space x fun later a => Q later a ∧ x.exec space = (.ok a, later) :=
  { h with result := fun a ha => ⟨h.result a ha, Prod.ext ha rfl⟩ }

theorem Ensures.pure {Q : Space → α → Prop} {a : α} (hvalid : space.Valid) (h : Q space a) :
    Ensures ground safe space (Pure.pure a) Q :=
  ⟨hvalid, .refl space, fun _ hb => by cases hb; exact h, fun _ _ => ⟨a, rfl⟩, fun _ => nofun, fun _ h => h, nofun⟩

theorem Ensures.throw {Q : Space → α → Prop} {error : SchemaError} (hvalid : space.Valid)
    (h : safe → space.Regular → False) (hsane : space.Regular → ∀ reason, error ≠ .internal reason)
    (hdivides : error ≠ .internal .divisionByZero) :
    Ensures ground safe space (MonadExcept.throw error : SpaceM α) Q where
  valid := hvalid
  extension := .refl space
  result := nofun
  succeeds := fun hsafe hregular => (h hsafe hregular).elim
  sane := fun hregular reason heq => hsane hregular reason (Except.error.inj heq)
  distinct := fun _ h => h
  divides := fun heq => hdivides (Except.error.inj heq)

/-- A definition can be refused. -/
theorem Ensures.refuse {Q : Space → α → Prop} {reason : ParseError} (hvalid : space.Valid)
    (h : safe → space.Regular → False) : Ensures ground safe space (parseError reason : SpaceM α) Q :=
  .throw hvalid h (fun _ => nofun) nofun

/-- What is out of the question in regular spaces may be an internal error other than a division by zero. -/
theorem Ensures.absurd {Q : Space → α → Prop} {reason : InternalError} (hvalid : space.Valid)
    (h : space.Regular → False) (hdivides : reason ≠ .divisionByZero) :
    Ensures ground safe space (internalError reason : SpaceM α) Q :=
  .throw hvalid (fun _ => h) (fun hregular => (h hregular).elim) fun heq => hdivides (SchemaError.internal.inj heq)

theorem Ensures.bind {P : Space → α → Prop} {Q : Space → β → Prop} {x : SpaceM α} {f : α → SpaceM β}
    (hx : Ensures ground safe space x P)
    (hf : ∀ later a, later.Valid → later.Extends space → P later a → Ensures ground safe later (f a) Q) :
    Ensures ground safe space (x >>= f) Q := by
  obtain ⟨hvalid, hext, hresult, hsucceeds, hsane, hdistinct, hdivides⟩ := hx
  cases hout : x.exec space with
  | mk out later =>
      rw [hout] at hvalid hext hresult hsucceeds hsane hdistinct hdivides
      cases out with
      | ok a =>
          have hexec : (x >>= f).exec space = (f a).exec later := by rw [exec_bind, hout]
          obtain ⟨hvalid', hext', hresult', hsucceeds', hsane', hdistinct', hdivides'⟩ :=
            hf later a hvalid hext (hresult a rfl)
          rw [← hexec] at hvalid' hext' hresult' hsucceeds' hsane' hdistinct' hdivides'
          exact ⟨hvalid', hext'.trans hext, hresult', hsucceeds', hsane',
            fun hground h => hdistinct' hground (hdistinct hground h), hdivides'⟩
      | error error =>
          have hexec : (x >>= f).exec space = (.error error, later) := by rw [exec_bind, hout]
          refine ⟨?_, ?_, ?_, ?_, ?_, ?_, ?_⟩ <;> rw [hexec]
          · exact hvalid
          · exact hext
          · exact nofun
          · intro hsafe hregular
            obtain ⟨a, ha⟩ := hsucceeds hsafe hregular
            cases ha
          · intro hregular reason heq
            exact hsane hregular reason (congrArg Except.error (Except.error.inj heq))
          · exact hdistinct
          · exact fun heq => hdivides (congrArg Except.error (Except.error.inj heq))

theorem Ensures.get (hvalid : space.Valid) :
    Ensures ground safe space (MonadState.get : SpaceM Space) fun later current => current = later :=
  ⟨hvalid, .refl space, fun _ ha => by cases ha; rfl, fun _ _ => ⟨_, rfl⟩, fun _ => nofun, fun _ h => h, nofun⟩

theorem Ensures.note {event : Event} (hvalid : space.Valid) :
    Ensures ground safe space (note event) fun later _ => event ∈ later.trace where
  valid := ⟨hvalid.lawful, hvalid.nodup, hvalid.named, hvalid.written, hvalid.closed, hvalid.home, hvalid.numbered,
    hvalid.serials, hvalid.labelled, hvalid.labels, hvalid.counted, hvalid.full, hvalid.canonical⟩
  extension :=
    ⟨rfl, rfl, .refl _, fun _ h => h, fun _ h => List.mem_cons_of_mem _ h, .of_subset rfl fun _ h => h⟩
  result := fun _ _ => List.mem_cons_self
  succeeds := fun _ _ => ⟨_, rfl⟩
  sane := fun _ => nofun
  distinct := fun _ h => h
  divides := nofun

end SpaceM

-- ---------------------------------------------------------------------------
-- Interning
-- ---------------------------------------------------------------------------

/-- A content that can be interned in a space. -/
structure Content.Ready (ground : Prop) (space : Space) (caption : Caption) (content : Content Node) : Prop where
  sound : content.Sound
  canonical : content.Canonical caption
  children : ∀ c ∈ content.children, space.Holds c
  distinct : ground → space.Distinct → content.Distinct

/-- The content of a live node can be interned under any caption that it is canonical with. -/
theorem Space.Valid.ready {ground : Prop} {space : Space} (hvalid : space.Valid) {node : Node} (h : space.Holds node)
    {caption : Caption} (hcanonical : node.content.Canonical caption) : node.content.Ready ground space caption where
  sound := (hvalid.written node h).sound
  canonical := hcanonical
  children := hvalid.closed node h
  distinct := fun _ hdistinct => hdistinct node h

theorem SpaceM.Ensures.intern {ground safe : Prop} {space : Space} {content : Content Node} {caption : Caption}
    (hvalid : space.Valid) (h : content.Ready ground space caption) :
    Ensures ground safe space (intern content caption) fun later node => later.Interned content node where
  valid := hvalid.intern h.sound h.canonical h.children
  extension := hvalid.intern_extends content caption
  result := by
    rintro a ⟨⟩
    exact hvalid.interned caption h.sound h.children
  succeeds := fun _ _ => ⟨_, rfl⟩
  sane := fun _ => nofun
  distinct := fun hground hdistinct => hdistinct.intern hvalid caption (h.distinct hground hdistinct)
  divides := nofun

end SchemaAlgebra
