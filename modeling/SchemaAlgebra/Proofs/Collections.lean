-- SUMMARY: Collecting problems loses and doubles none, and keeps one entry for each path text.
import Mathlib.Data.Finset.Card
import SchemaAlgebra.Validation.Ledger

/-!
# Collections

A collection is determined by the problems added to it: it has one entry for
every path text, which is what the problems with that text are when each joins
those before it. Everything else about collections follows from this.
-/

namespace SchemaAlgebra

-- ---------------------------------------------------------------------------
-- First appearances
-- ---------------------------------------------------------------------------

section Firsts

variable {α β : Type} [BEq α] [LawfulBEq α] [BEq β] [LawfulBEq β]

theorem eraseDups_concat (xs : List α) (x : α) :
    (xs ++ [x]).eraseDups = if x ∈ xs then xs.eraseDups else xs.eraseDups ++ [x] := by
  rw [List.eraseDups_append]
  by_cases hx : x ∈ xs <;> simp [List.removeAll, List.eraseDups_cons, hx]

theorem nodup_eraseDups (xs : List α) : xs.eraseDups.Nodup := by
  induction xs using List.reverseRecOn with
  | nil => exact List.nodup_nil
  | append_singleton xs x ih =>
      rw [eraseDups_concat]
      split
      · exact ih
      · rename_i hx
        refine List.nodup_append.mpr ⟨ih, List.nodup_singleton x, fun a ha b hb => ?_⟩
        rintro rfl
        rw [List.mem_singleton.mp hb, List.mem_eraseDups] at ha
        exact hx ha

/-- A function that keeps the members apart also keeps their first appearances. -/
theorem eraseDups_map {f : α → β} {xs : List α} (hf : ∀ x ∈ xs, ∀ y ∈ xs, f x = f y → x = y) :
    (xs.map f).eraseDups = xs.eraseDups.map f := by
  induction xs using List.reverseRecOn with
  | nil => rfl
  | append_singleton xs x ih =>
      have hmem : f x ∈ xs.map f ↔ x ∈ xs := by
        refine ⟨fun h => ?_, List.mem_map_of_mem⟩
        obtain ⟨y, hy, hfy⟩ := List.mem_map.mp h
        have hyx := hf y (List.mem_append_left _ hy) x (List.mem_append_right _ List.mem_cons_self) hfy
        rwa [hyx] at hy
      rw [List.map_append, List.map_singleton, eraseDups_concat, eraseDups_concat,
        ih fun a ha b hb => hf a (List.mem_append_left _ ha) b (List.mem_append_left _ hb)]
      simp only [hmem]
      split <;> simp

end Firsts

-- ---------------------------------------------------------------------------
-- Joining
-- ---------------------------------------------------------------------------

namespace Problem

mutual

/-- The problems that a problem stands for, with merged ones taken apart. -/
def leaves : Problem → List Problem
  | .mk _ (.intersection problems) _ => leavesOf problems
  | problem => [problem]
termination_by structural problem => problem

def leavesOf : List Problem → List Problem
  | [] => []
  | problem :: rest => leaves problem ++ leavesOf rest
termination_by structural problems => problems

end

@[simp]
theorem leavesOf_eq (problems : List Problem) : leavesOf problems = problems.flatMap leaves := by
  induction problems with
  | nil => rfl
  | cons problem rest ih => rw [leavesOf, ih, List.flatMap_cons]

@[simp]
theorem path_join (earlier later : Problem) : (earlier.join later).path = earlier.path := by
  unfold join
  split <;> rfl

@[simp]
theorem location_join (earlier later : Problem) : (earlier.join later).location = earlier.location :=
  congrArg pathText (path_join earlier later)

@[simp]
theorem leaves_join (earlier later : Problem) : (earlier.join later).leaves = earlier.leaves ++ later.leaves := by
  obtain ⟨path, code, data⟩ := earlier
  cases code <;> simp [join, code, leaves, Problem.path, Problem.data]

end Problem

namespace Problems

open Problem

/-- Problems of which each joins those before it. -/
def joined : List Problem → Option Problem
  | [] => none
  | first :: rest => some (rest.foldl join first)

theorem joined_concat (problems : List Problem) (problem : Problem) :
    joined (problems ++ [problem]) = some ((joined problems).elim problem (·.join problem)) := by
  cases problems with
  | nil => rfl
  | cons first rest => simp [joined]

theorem isSome_joined (problems : List Problem) : (joined problems).isSome ↔ problems ≠ [] := by
  cases problems <;> simp [joined]

/-- The entry stays at the path of the first problem. -/
theorem path_joined (problems : List Problem) : (joined problems).map path = problems.head?.map path := by
  induction problems using List.reverseRecOn with
  | nil => rfl
  | append_singleton problems problem ih =>
      rw [joined_concat]
      cases problems <;> simp_all [joined]

theorem leaves_joined (problems : List Problem) :
    (joined problems).elim [] leaves = problems.flatMap leaves := by
  induction problems using List.reverseRecOn with
  | nil => rfl
  | append_singleton problems problem ih =>
      rw [joined_concat, List.flatMap_append, ← ih]
      cases joined problems <;> simp

-- ---------------------------------------------------------------------------
-- Adding a problem
-- ---------------------------------------------------------------------------

theorem locations_file (problem : Problem) (problems : List Problem) :
    (file problem problems).map location =
      if problem.location ∈ problems.map location then problems.map location
      else problems.map location ++ [problem.location] := by
  induction problems with
  | nil => rfl
  | cons earlier rest ih =>
      unfold file
      by_cases hhere : earlier.location = problem.location
      · simp [hhere]
      · rw [if_neg hhere, List.map_cons, ih]
        split <;> simp_all [eq_comm]

/-- An entry is found by its location, however many problems were added. -/
theorem at?_cons (entry : Problem) (rest : List Problem) (count count' : Nat) (s : String) :
    at? ⟨entry :: rest, count⟩ s = if entry.location = s then some entry else at? ⟨rest, count'⟩ s := by
  unfold at?
  by_cases hs : entry.location = s
  · rw [List.find?_cons_of_pos (by simpa using hs), if_pos hs]
  · rw [List.find?_cons_of_neg (by simpa using hs), if_neg hs]

/-- Adding a problem changes the entry at its location only. -/
theorem at?_add (problems : Problems) (problem : Problem) (s : String) :
    (problems.add problem).at? s =
      if problem.location = s then some ((problems.at? s).elim problem (·.join problem)) else problems.at? s := by
  obtain ⟨list, count⟩ := problems
  unfold add
  induction list with
  | nil => exact at?_cons problem [] _ _ s
  | cons entry rest ih =>
      rw [at?_cons entry rest count count]
      unfold file
      by_cases hhere : entry.location = problem.location
      · rw [if_pos hhere, at?_cons _ _ _ count, location_join]
        by_cases hs : problem.location = s <;> simp [hhere, hs]
      · rw [if_neg hhere, at?_cons _ _ _ (count + 1), ih]
        by_cases hs : entry.location = s
        · have hother : problem.location ≠ s := fun h => hhere (hs.trans h.symm)
          rw [if_pos hs, if_pos hs, if_neg hother]
        · rw [if_neg hs, if_neg hs]

-- ---------------------------------------------------------------------------
-- Collecting problems
-- ---------------------------------------------------------------------------

theorem ofList_concat (problems : List Problem) (problem : Problem) :
    ofList (problems ++ [problem]) = (ofList problems).add problem := by
  simp [ofList]

theorem count_ofList (problems : List Problem) : (ofList problems).count = problems.length := by
  induction problems using List.reverseRecOn with
  | nil => rfl
  | append_singleton problems problem ih => simp [ofList_concat, add, ih]

/-- The path texts are listed in the order in which they first appeared. -/
theorem locations_ofList (problems : List Problem) :
    (ofList problems).list.map location = (problems.map location).eraseDups := by
  induction problems using List.reverseRecOn with
  | nil => rfl
  | append_singleton problems problem ih =>
      rw [ofList_concat, add, locations_file, ih, List.map_append, List.map_singleton, eraseDups_concat]
      simp only [List.mem_eraseDups]

/-- The entry for a path text is what the problems with this text are when joined. -/
theorem at?_ofList (problems : List Problem) (s : String) :
    (ofList problems).at? s = joined (problems.filter (·.location = s)) := by
  induction problems using List.reverseRecOn with
  | nil => rfl
  | append_singleton problems problem ih =>
      rw [ofList_concat, at?_add, ih, List.filter_append]
      by_cases hs : problem.location = s
      · simp [hs, joined_concat]
      · simp [hs]

theorem list_eq_filterMap_at? {problems : Problems} (h : (problems.list.map location).Nodup) :
    problems.list = (problems.list.map location).filterMap problems.at? := by
  obtain ⟨list, count⟩ := problems
  induction list with
  | nil => rfl
  | cons entry rest ih =>
      obtain ⟨hentry, hrest⟩ := List.nodup_cons.mp h
      have hat : at? ⟨entry :: rest, count⟩ entry.location = some entry := by
        rw [at?_cons _ _ _ count, if_pos rfl]
      dsimp only
      rw [List.map_cons, List.filterMap_cons_some hat]
      refine congrArg (entry :: ·) ((ih hrest).trans (List.filterMap_congr fun s hs => ?_))
      have hother : entry.location ≠ s := by
        rintro rfl
        exact hentry hs
      rw [at?_cons _ _ _ count, if_neg hother]

/-- A collection is the entries of its path texts, in the order in which these first appeared. -/
theorem list_ofList (problems : List Problem) :
    (ofList problems).list =
      (problems.map location).eraseDups.filterMap fun s => joined (problems.filter (·.location = s)) := by
  have hnodup := nodup_eraseDups (problems.map location)
  rw [← locations_ofList] at hnodup
  refine (list_eq_filterMap_at? hnodup).trans ?_
  rw [locations_ofList]
  exact List.filterMap_congr fun s _ => at?_ofList problems s

end Problems

-- ---------------------------------------------------------------------------
-- Ledgers
-- ---------------------------------------------------------------------------

namespace Ledger

open Problem

/-- The places of a ledger are those where a search through its list would stop. -/
def Sound (ledger : Ledger) : Prop :=
  ∀ s, ledger.places.lookup s = ledger.list.findIdx? (·.location == s)

theorem file_eq (problem : Problem) (problems : List Problem) :
    Problems.file problem problems =
      match problems.findIdx? (·.location == problem.location) with
      | none => problems ++ [problem]
      | some place => problems.modify place (·.join problem) := by
  induction problems with
  | nil => rfl
  | cons entry rest ih =>
      unfold Problems.file
      rw [List.findIdx?_cons]
      by_cases hhere : entry.location = problem.location
      · rw [if_pos hhere, if_pos (by simpa using hhere)]
        exact (List.modify_zero_cons _ _ _).symm
      · rw [if_neg hhere, if_neg (by simpa using hhere), ih]
        cases rest.findIdx? (·.location == problem.location) with
        | none => rfl
        | some place => exact (List.modify_succ_cons _ _ _ _).symm

variable {ledger : Ledger} (h : ledger.Sound) (problem : Problem)

include h

theorem list_add : (ledger.add problem).list = Problems.file problem ledger.list := by
  rw [file_eq, ← h]
  unfold add
  cases ledger.places.lookup problem.location <;> rfl

/-- A new path text gets the place behind the list, and joining moves no path text. -/
theorem sound_add : (ledger.add problem).Sound := by
  have hlocations (s : String) : (ledger.add problem).list.findIdx? (·.location == s) =
      ((ledger.add problem).list.map location).findIdx? (· == s) := by
    rw [List.findIdx?_map]
    rfl
  intro s
  rw [hlocations, list_add h, Problems.locations_file]
  have hmem : problem.location ∈ ledger.list.map location ↔
      (ledger.list.findIdx? (·.location == problem.location)).isSome := by
    simp [List.findIdx?_isSome]
  unfold add
  cases hplace : ledger.places.lookup problem.location with
  | none =>
      rw [h] at hplace
      rw [if_neg (by simp [hmem, hplace]), List.lookup_cons, List.findIdx?_append, List.findIdx?_map, h s]
      by_cases hs : s = problem.location
      · subst hs
        simp [Function.comp_def, hplace]
      · have hother : (s == problem.location) = false := by simpa using hs
        simp [Function.comp_def, hother, Ne.symm hs]
  | some place =>
      rw [h] at hplace
      rw [if_pos (by simp [hmem, hplace]), List.findIdx?_map]
      exact h s

theorem at?_eq (s : String) : ledger.at? s = Problems.at? ⟨ledger.list, ledger.count⟩ s := by
  unfold at? Problems.at?
  rw [h, List.find?_eq_bind_findIdx?_getElem?]

omit h

/-- Remembering the places changes nothing about what is collected. -/
theorem ofList_agrees (problems : List Problem) : (ofList problems).Sound ∧
    (ofList problems).list = (Problems.ofList problems).list ∧
    (ofList problems).count = (Problems.ofList problems).count := by
  induction problems using List.reverseRecOn with
  | nil => exact ⟨fun _ => rfl, rfl, rfl⟩
  | append_singleton problems problem ih =>
      obtain ⟨hsound, hlist, hcount⟩ := ih
      have hconcat : ofList (problems ++ [problem]) = (ofList problems).add problem := by simp [ofList]
      rw [hconcat, Problems.ofList_concat]
      refine ⟨sound_add hsound problem, ?_, ?_⟩
      · rw [list_add hsound, hlist]
        rfl
      · have hadd : ((ofList problems).add problem).count = (ofList problems).count + 1 := by
          unfold add
          split <;> rfl
        rw [hadd, hcount]
        rfl

end Ledger

-- ---------------------------------------------------------------------------
-- What a collection holds
-- ---------------------------------------------------------------------------

namespace Problems

open Problem

/-- Collecting loses and doubles no problem: every problem is counted, the entries have the path texts that occur,
each once and in the order in which they first appeared, and an entry stands for the problems at its path text, in
the order in which they were added. A ledger collects the same. -/
theorem ofList_keeps (problems : List Problem) :
    (ofList problems).count = problems.length ∧
    (ofList problems).list.length = (problems.map location).toFinset.card ∧
    (ofList problems).list.map location = (problems.map location).eraseDups ∧
    (∀ s, (((ofList problems).at? s).isSome ↔ ∃ problem ∈ problems, problem.location = s) ∧
      ((ofList problems).at? s).elim [] leaves = (problems.filter (·.location = s)).flatMap leaves) ∧
    (Ledger.ofList problems).list = (ofList problems).list ∧
    (Ledger.ofList problems).count = (ofList problems).count ∧
    ∀ s, (Ledger.ofList problems).at? s = (ofList problems).at? s := by
  obtain ⟨hsound, hlist, hcount⟩ := Ledger.ofList_agrees problems
  refine ⟨count_ofList problems, ?_, locations_ofList problems, fun s => ⟨?_, ?_⟩, hlist, hcount, fun s => ?_⟩
  · rw [← List.length_map location, locations_ofList, ← List.toFinset_card_of_nodup (nodup_eraseDups _)]
    congr 1
    ext s
    simp
  · rw [at?_ofList, isSome_joined]
    simp [List.filter_eq_nil_iff]
  · rw [at?_ofList, leaves_joined]
  · rw [Ledger.at?_eq hsound, hlist, hcount]

end Problems

end SchemaAlgebra
