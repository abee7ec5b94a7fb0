-- SUMMARY: Pruning cannot be observed: whatever is asked in a session, the answers are those of the session that never prunes.
import SchemaAlgebra.Proofs.Answers
import SchemaAlgebra.Proofs.Sessions

/-!
# Pruning

Dead entries of the node table are found by nobody: a node with their identifier is
made anew, with the next label and the next number, whether its entry is still there
or not. So two spaces that differ in dead entries alone answer alike and go on to
differ in dead entries alone. A session is compared with the one that does the same
but never prunes; what is asked and held on to can depend on all earlier answers.
-/

namespace SchemaAlgebra

-- ---------------------------------------------------------------------------
-- Spaces that hold the same
-- ---------------------------------------------------------------------------

namespace Space

/-- Two spaces that differ in nothing but the dead entries of their tables, and the order of entries. -/
structure Resembles (s t : Space) : Prop where
  tidy : s.Tidy
  tidy' : t.Tidy
  holds : ∀ node, s.Holds node ↔ t.Holds node
  /-- Apart from their tables they are the same. -/
  rest : { s with entries := [] } = { t with entries := [] }

variable {s t : Space}

theorem Resembles.refl (h : s.Tidy) : s.Resembles s := ⟨h, h, fun _ => .rfl, rfl⟩

theorem Resembles.symm (h : s.Resembles t) : t.Resembles s :=
  ⟨h.tidy', h.tidy, fun node => (h.holds node).symm, h.rest.symm⟩

theorem Resembles.trans {u : Space} (h : s.Resembles t) (h' : t.Resembles u) : s.Resembles u :=
  ⟨h.tidy, h'.tidy', fun node => (h.holds node).trans (h'.holds node), h.rest.trans h'.rest⟩

theorem prune_resembles (h : s.Tidy) : s.prune.Resembles s := ⟨h.prune, h, fun _ => holds_prune, rfl⟩

namespace Resembles

variable (h : s.Resembles t)

include h

theorem number : s.number = t.number := (congrArg Space.number h.rest :)

theorem config : s.config = t.config := (congrArg Space.config h.rest :)

theorem registry : s.registry = t.registry := (congrArg Space.registry h.rest :)

/-- A new node of a content is the same in both. -/
theorem made (content : Content Node) (caption : Caption) : s.made content caption = t.made content caption :=
  (congrArg (fun space : Space => space.made content caption) h.rest :)

theorem naming (content : Content Node) : (s.naming content).Resembles (t.naming content) where
  tidy := ⟨h.tidy.nodup, h.tidy.named⟩
  tidy' := ⟨h.tidy'.nodup, h.tidy'.named⟩
  holds := h.holds
  rest := (congrArg (fun space : Space => space.naming content) h.rest :)

theorem find? (id : String) : s.find? id = t.find? id := by
  refine Option.ext fun node => ⟨fun hfind => ?_, fun hfind => ?_⟩
  · obtain ⟨hnode, rfl⟩ := holds_of_find? h.tidy hfind
    exact h.tidy'.find? ((h.holds node).mp hnode)
  · obtain ⟨hnode, rfl⟩ := holds_of_find? h.tidy' hfind
    exact h.tidy.find? ((h.holds node).mpr hnode)

/-- What is made anew is added to both, in place of a dead entry or not. -/
theorem adding {node : Node} (hfind : s.find? node.id = none) : (s.adding node).Resembles (t.adding node) where
  tidy := h.tidy.adding node
  tidy' := h.tidy'.adding node
  holds other := by
    rw [holds_adding h.tidy hfind, holds_adding h.tidy' ((h.find? _).symm.trans hfind), h.holds]
  rest := (congrArg (fun space : Space => { space.adding node with entries := [] }) h.rest :)

theorem intern (content : Content Node) (caption : Caption) :
    (s.intern content caption).1 = (t.intern content caption).1 ∧
      (s.intern content caption).2.Resembles (t.intern content caption).2 := by
  have hnaming := h.naming content
  have hmade := hnaming.made content caption
  rcases intern_cases s content caption with ⟨node, hfind, heq⟩ | ⟨hfind, heq⟩
  · rw [hnaming.find?, hnaming.registry] at hfind
    rcases intern_cases t content caption with ⟨node', hfind', heq'⟩ | ⟨hnone, -⟩
    · rw [heq, heq']
      exact ⟨Option.some.inj (hfind.symm.trans hfind'), hnaming⟩
    · cases hfind.symm.trans hnone
  · rcases intern_cases t content caption with ⟨node', hfind', -⟩ | ⟨-, heq'⟩
    · rw [← hnaming.registry, ← hnaming.find?] at hfind'
      cases hfind'.symm.trans hfind
    · rw [heq, heq', ← hmade]
      exact ⟨rfl, hnaming.adding hfind⟩

theorem sweep (roots : List Node) : (s.sweep roots).Resembles (t.sweep roots) where
  tidy := h.tidy.sweep roots
  tidy' := h.tidy'.sweep roots
  holds node := by rw [holds_sweep, holds_sweep, h.holds, h.number]
  rest := h.rest

/-- As many nodes are alive in both. -/
theorem liveCount : s.liveCount = t.liveCount := by
  have hids (space other : Space) (hnamed : ∀ node, space.Holds node → other.Holds node) (htidy : space.Tidy)
      (htidy' : other.Tidy) : space.prune.entries.map Entry.id ⊆ other.prune.entries.map Entry.id := by
    intro id hid
    obtain ⟨entry, hentry, rfl⟩ := List.mem_map.mp hid
    obtain ⟨hmem, halive⟩ := List.mem_filter.mp hentry
    obtain ⟨node, hnode⟩ := Option.isSome_iff_exists.mp halive
    obtain ⟨entry', hmem', hnode'⟩ := hnamed node ⟨entry, hmem, hnode⟩
    rw [← htidy.named entry hmem node hnode, htidy'.named entry' hmem' node hnode']
    exact List.mem_map_of_mem (List.mem_filter.mpr ⟨hmem', by rw [hnode']; rfl⟩)
  have hperm : (s.prune.entries.map Entry.id).Perm (t.prune.entries.map Entry.id) := by
    refine (List.perm_ext_iff_of_nodup h.tidy.prune.nodup h.tidy'.prune.nodup).mpr fun id => ?_
    exact ⟨fun hid => hids s t (fun node => (h.holds node).mp) h.tidy h.tidy' hid,
      fun hid => hids t s (fun node => (h.holds node).mpr) h.tidy' h.tidy hid⟩
  have hlength := hperm.length_eq
  rwa [List.length_map, List.length_map] at hlength

/-- The summaries are one text around the number of entries. -/
theorem summary : ∃ before after : String, s.summary = before ++ toString s.entries.length ++ after ∧
    t.summary = before ++ toString t.entries.length ++ after := by
  have hsplit (space : Space) (head a b c d e : String) (hsummary : space.summary =
      head ++ toString space.entries.length ++ a ++ b ++ c ++ d ++ e) :
      space.summary = head ++ toString space.entries.length ++ (a ++ (b ++ (c ++ (d ++ e)))) := by
    simp only [hsummary, String.append_assoc]
  refine ⟨_, _, hsplit s _ _ _ _ _ _ rfl, ?_⟩
  rw [h.config, h.registry]
  exact hsplit t _ _ _ _ _ _ rfl

end Resembles

end Space

-- ---------------------------------------------------------------------------
-- Computations
-- ---------------------------------------------------------------------------

namespace SpaceM

variable {α β : Type}

/-- A computation that does not see dead entries. -/
def Blind (x : SpaceM α) : Prop :=
  ∀ s t : Space, s.Resembles t → (x.exec s).1 = (x.exec t).1 ∧ (x.exec s).2.Resembles (x.exec t).2

theorem Blind.bind {x : SpaceM α} {f : α → SpaceM β} (hx : x.Blind) (hf : ∀ a, (f a).Blind) : (x >>= f).Blind := by
  intro s t h
  obtain ⟨hout, hlater⟩ := hx s t h
  rw [exec_bind, exec_bind]
  rcases hs : x.exec s with ⟨out, later⟩
  rcases ht : x.exec t with ⟨out', later'⟩
  rw [hs, ht] at hout hlater
  obtain rfl : out = out' := hout
  cases out with
  | error error => exact ⟨rfl, hlater⟩
  | ok a => exact hf a later later' hlater

theorem Blind.note (event : Event) : (SpaceM.note event).Blind := fun _ _ h =>
  ⟨rfl, ⟨h.tidy.nodup, h.tidy.named⟩, ⟨h.tidy'.nodup, h.tidy'.named⟩, h.holds,
    (congrArg (fun space : Space => { space with trace := event :: space.trace }) h.rest :)⟩

/-- Nothing that is put together from simple steps sees dead entries. -/
theorem Compositional.blind : Compositional Blind where
  pure _ _ _ h := ⟨rfl, h⟩
  throw _ _ _ _ h := ⟨rfl, h⟩
  bind := .bind
  look hlook hf s t h := by
    have hsame := hlook s t h.number h.config h.registry
    change (SpaceM.exec (_ >>= _) s).1 = _ ∧ _
    rw [exec_bind, exec_bind]
    dsimp only [exec_get]
    rw [hsame]
    exact hf t s t h
  note := .note
  intern content caption _ s t h := by
    obtain ⟨hnode, hlater⟩ := h.intern content caption
    exact ⟨congrArg Except.ok hnode, hlater⟩

end SpaceM

-- ---------------------------------------------------------------------------
-- Questions
-- ---------------------------------------------------------------------------

variable [Behaviour]

theorem Request.reply_blind (request : Request) : request.reply.Blind := by
  refine request.reply_inherits .blind (fun _ _ _ h => ⟨rfl, h⟩) fun thing s t h => ?_
  refine ⟨?_, ⟨h.tidy.nodup, h.tidy.named⟩, ⟨h.tidy'.nodup, h.tidy'.named⟩, h.holds, ?_⟩
  · exact (congrArg (fun registry : Registry => Except.ok (Answer.name (registry.register thing).1)) h.registry :)
  · exact (congrArg (fun space : Space => { space with registry := (space.registry.register thing).2 }) h.rest :)

theorem Question.reply_blind (question : Question) : question.reply.Blind := by
  cases question with
  | request asked => exact asked.reply_blind
  | agree a b => exact (Intersected.equals_inherits .blind a b).bind fun _ => SpaceM.Compositional.blind.pure _
  | live => exact fun s t h => ⟨(congrArg (fun n => Except.ok (Answer.count n)) h.liveCount :), h⟩
  | resolve reference =>
      exact fun s t h => ⟨(congrArg (fun registry : Registry => Except.ok (Answer.thing (registry.resolve? reference)))
        h.registry :), h⟩
  | nameOf thing =>
      exact fun s t h => ⟨(congrArg (fun registry : Registry => Except.ok (Answer.name (registry.nameOf? thing)))
        h.registry :), h⟩
  | allows node v => exact fun s t h => ⟨rfl, h⟩
  | apply node v serial => exact fun s t h => ⟨rfl, h⟩

-- ---------------------------------------------------------------------------
-- Scripts
-- ---------------------------------------------------------------------------

namespace Session

/-- What the user of a space does next. What is asked and held on to can depend on the answers so far. -/
inductive Command where
  | ask (question : List Answer → Question)
  /-- Holds on to these nodes from now on, and drops all others. -/
  | keep (handles : List Answer → List Node)
  /-- Nodes that no handle reaches die. -/
  | sweep
  | prune

def Command.isPrune : Command → Bool
  | .prune => true
  | _ => false

/-- A session with what was learnt in it, the latest last. -/
structure Record where
  session : Session
  answers : List Answer

namespace Record

def run (record : Record) : Command → Record
  | .ask question =>
    let (out, later) := (question record.answers).reply.exec record.session.space
    ⟨⟨later, record.session.handles⟩, record.answers ++ [match out with
      | .ok answer => answer
      | .error error => .failure error]⟩
  | .keep handles => ⟨⟨record.session.space, handles record.answers⟩, record.answers⟩
  | .sweep => ⟨⟨record.session.space.sweep record.session.handles, record.session.handles⟩, record.answers⟩
  | .prune => ⟨⟨record.session.space.prune, record.session.handles⟩, record.answers⟩

/-- The commands of a script, one after the other. -/
def play (record : Record) (script : List Command) : Record := script.foldl run record

/-- Two records of the same answers, and of the same nodes that are held on to, in spaces that differ in dead
entries alone. -/
structure Resembles (a b : Record) : Prop where
  answers : a.answers = b.answers
  handles : a.session.handles = b.session.handles
  space : a.session.space.Resembles b.session.space

variable {a b : Record}

theorem Resembles.run (h : a.Resembles b) (command : Command) : (a.run command).Resembles (b.run command) := by
  obtain ⟨⟨s, handles⟩, answers⟩ := a
  obtain ⟨⟨t, handles'⟩, answers'⟩ := b
  obtain ⟨hanswers, hhandles, hspace⟩ := h
  obtain rfl : answers = answers' := hanswers
  obtain rfl : handles = handles' := hhandles
  cases command with
  | ask question =>
      obtain ⟨hout, hlater⟩ := (question answers).reply_blind s t hspace
      exact ⟨by simp only [Record.run, hout], rfl, hlater⟩
  | keep handles => exact ⟨rfl, rfl, hspace⟩
  | sweep => exact ⟨rfl, rfl, hspace.sweep handles⟩
  | prune =>
      have hprune := (Space.prune_resembles hspace.tidy).trans hspace
      exact ⟨rfl, rfl, hprune.trans (Space.prune_resembles hspace.tidy').symm⟩

/-- A script and the same without its prunes. -/
theorem Resembles.play (h : a.Resembles b) (script : List Command) :
    (a.play script).Resembles (b.play (script.filter fun command => !command.isPrune)) := by
  induction script generalizing a b with
  | nil => exact h
  | cons command rest ih =>
      cases hprune : command.isPrune with
      | false =>
          rw [List.filter_cons_of_pos (by rw [hprune]; rfl)]
          exact ih (h.run command)
      | true =>
          -- What only the first of the two does leaves it like the other.
          rw [List.filter_cons_of_neg (by rw [hprune]; exact nofun)]
          cases command with
          | prune => exact ih ⟨h.answers, h.handles, (Space.prune_resembles h.space.tidy).trans h.space⟩
          | ask _ | keep _ | sweep => cases hprune

end Record

/-- Whatever can happen in a session is what some script does. -/
theorem Run.played {checked : Prop} {session later : Session} (h : Run checked session later) (answers : List Answer) :
    ∃ script, (Record.play ⟨session, answers⟩ script).session = later := by
  induction h with
  | refl => exact ⟨[], rfl⟩
  | @tail middle later _ hstep ih =>
      obtain ⟨script, hscript⟩ := ih
      suffices ∃ more, (Record.play (Record.play ⟨session, answers⟩ script) more).session = later by
        obtain ⟨more, hmore⟩ := this
        exact ⟨script ++ more, (congrArg Record.session List.foldl_append).trans hmore⟩
      generalize Record.play ⟨session, answers⟩ script = record at hscript
      subst hscript
      cases hstep with
      | request request origin gained =>
          refine ⟨[.ask fun _ => .request request, .keep fun _ => gained ++ record.session.handles], ?_⟩
          exact congrArg (Session.mk · _) (request.exec_reply record.session.space)
      | hold node => exact ⟨[.keep fun _ => node :: record.session.handles], rfl⟩
      | drop kept => exact ⟨[.keep fun _ => kept], rfl⟩
      | sweep => exact ⟨[.sweep], rfl⟩
      | prune => exact ⟨[.prune], rfl⟩

/-- Pruning cannot be observed. A script gives the answers that it gives without its prunes: the same nodes with the
same identifiers, labels and numbers, the same names, verdicts and errors, and as many live nodes whenever it asks.
It ends with the same handles, in a space that differs in dead entries alone, so that its summary differs in the
number of entries alone. -/
theorem prune_unobservable (number : Nat) (config : SpaceConfig) (script : List Command) :
    let start : Record := ⟨.new number config, []⟩
    let pruned := start.play script
    let unpruned := start.play (script.filter fun command => !command.isPrune)
    pruned.answers = unpruned.answers ∧ pruned.session.handles = unpruned.session.handles ∧
      pruned.session.space.Resembles unpruned.session.space ∧
      ∃ before after : String,
        pruned.session.space.summary = before ++ toString pruned.session.space.entries.length ++ after ∧
        unpruned.session.space.summary = before ++ toString unpruned.session.space.entries.length ++ after := by
  intro start pruned unpruned
  have hempty : (Space.new number config).Tidy := (Space.valid_new number config).tidy
  have hplay : pruned.Resembles unpruned := Record.Resembles.play ⟨rfl, rfl, .refl hempty⟩ script
  exact ⟨hplay.answers, hplay.handles, hplay.space, hplay.space.summary⟩

end Session

end SchemaAlgebra
