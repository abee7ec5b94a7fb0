-- SUMMARY: Walks change a context only by adding problems to its innermost collector, and find what traversals find.
import SchemaAlgebra.Proofs.Dispatch
import SchemaAlgebra.Proofs.Explanation
import SchemaAlgebra.Validation.Context
import Mathlib.Data.List.Sort

/-!
# Walks

Whatever a node does on the way, it leaves the context as it was but for problems
added to the innermost collector, and these are the ones that the traversal finds
in the scene of the context. A union takes the first candidate that reports
nothing, and what the ones before it reported is given up.
-/

namespace SchemaAlgebra

-- ---------------------------------------------------------------------------
-- Contexts
-- ---------------------------------------------------------------------------

namespace Context

/-- Adds problems to the innermost collector. -/
def collectAll (context : Context) (problems : List Problem) : Context :=
  problems.foldl collect context

/-- The context after some problems were added to its innermost collector, and nothing else was done to it. -/
structure Gains (before after : Context) (problems : List Problem) : Prop where
  path : after.path = before.path
  depth : after.branches.length = before.branches.length
  outer : after.outer = before.outer
  innermost : after.innermost = problems.foldl Problems.add before.innermost

theorem collect_gains (context : Context) (problem : Problem) : context.Gains (context.collect problem) [problem] := by
  obtain ⟨path, root, branches⟩ := context
  cases branches <;> exact ⟨rfl, rfl, rfl, rfl⟩

theorem collectAll_gains (context : Context) (problems : List Problem) :
    context.Gains (context.collectAll problems) problems := by
  induction problems generalizing context with
  | nil => exact ⟨rfl, rfl, rfl, rfl⟩
  | cons problem rest ih =>
      have hfirst := context.collect_gains problem
      have hrest := ih (context.collect problem)
      exact ⟨hrest.path.trans hfirst.path, hrest.depth.trans hfirst.depth, hrest.outer.trans hfirst.outer,
        hrest.innermost.trans (by rw [hfirst.innermost]; rfl)⟩

theorem collectAll_append (context : Context) (problems more : List Problem) :
    context.collectAll (problems ++ more) = (context.collectAll problems).collectAll more :=
  List.foldl_append

theorem errorCount_collectAll (context : Context) (problems : List Problem) :
    (context.collectAll problems).errorCount = context.errorCount + problems.length := by
  have hcount (start : Problems) : (problems.foldl Problems.add start).count = start.count + problems.length := by
    induction problems generalizing start with
    | nil => rfl
    | cons problem rest ih =>
        rw [List.foldl_cons, ih, List.length_cons]
        simp only [Problems.add]
        omega
  rw [errorCount, (context.collectAll_gains problems).innermost, hcount]
  rfl

/-- The errors that a walk counts are those that it reported. -/
theorem errorCount_lt_iff (context : Context) (problems : List Problem) :
    context.errorCount < (context.collectAll problems).errorCount ↔ problems ≠ [] := by
  rw [errorCount_collectAll, ← List.length_pos_iff]
  omega

theorem scene_collectAll (context : Context) (problems : List Problem) :
    (context.collectAll problems).scene = context.scene.after problems := by
  have hproblems : (context.collectAll problems).hasProblems = (context.hasProblems || !problems.isEmpty) := by
    rw [Bool.eq_iff_iff]
    simp only [hasProblems, errorCount_collectAll, Bool.or_eq_true, decide_eq_true_eq, Bool.not_eq_true',
      List.isEmpty_eq_false_iff, ← List.length_pos_iff]
    omega
  rw [scene, hproblems, (context.collectAll_gains problems).path]
  rfl

theorem collectAll_enter (context : Context) (key : PropKey) (problems : List Problem) :
    ((context.enter key).collectAll problems).leave = context.collectAll problems := by
  have hcollect (context : Context) (problem : Problem) :
      (context.enter key).collect problem = (context.collect problem).enter key := by
    obtain ⟨path, root, branches⟩ := context
    cases branches <;> rfl
  induction problems generalizing context with
  | nil => simp only [collectAll, List.foldl_nil, enter, leave, List.dropLast_concat]
  | cons problem rest ih =>
      rw [collectAll, List.foldl_cons, hcollect]
      exact ih (context.collect problem)

theorem popBranch_collectAll (context : Context) (problems : List Problem) :
    (context.pushBranch.collectAll problems).popBranch = (.ofList problems, context) := by
  have hcollect (inner : Problems) : collectAll { context with branches := inner :: context.branches } problems =
      { context with branches := problems.foldl Problems.add inner :: context.branches } := by
    induction problems generalizing inner with
    | nil => rfl
    | cons problem rest ih => exact ih (inner.add problem)
  rw [pushBranch, hcollect]
  rfl

end Context

theorem Finding.isEmpty_ofList (finding : Finding) : (Problems.ofList finding.problems).isEmpty = finding.isSound := by
  unfold Finding.isSound
  cases finding.problems with
  | nil => rfl
  | cons problem rest =>
      exact List.isEmpty_eq_false_iff.mpr (Problems.ofList_list_ne_nil (List.cons_ne_nil problem rest))

theorem Finding.isSound_iff {finding : Finding} : finding.isSound = true ↔ finding.problems = [] :=
  List.isEmpty_iff

-- ---------------------------------------------------------------------------
-- Walks and findings
-- ---------------------------------------------------------------------------

/-- A walk from a context finds what a traversal found: it gives the same value, and the problems were added to the
innermost collector. Something is reported exactly if there is a problem. -/
structure Walked.Finds (walked : Walked) (context : Context) (finding : Finding) : Prop where
  value : walked.value = finding.value
  context : walked.context = context.collectAll finding.problems
  nextSerial : walked.nextSerial = finding.nextSerial
  reports : walked.reports = [] ↔ finding.problems = []

namespace Walked

variable {walked : Walked} {context : Context} {finding : Finding}

theorem finds_quiet (v : Value) (context : Context) (serial : Nat) :
    (quiet v context serial).Finds context (.sound v serial) :=
  ⟨rfl, rfl, rfl, Iff.rfl⟩

theorem finds_report (code : ProblemCode Problem) (v : Value) (context : Context) (serial : Nat) :
    (report code v context serial).Finds context (context.scene.report code v serial) := by
  refine ⟨rfl, rfl, rfl, ?_⟩
  simp [reports, report, Incident.problem?, Scene.report]

/-- Where nothing was found, the context is the one before. -/
theorem Finds.context_eq (h : walked.Finds context finding) (hnone : finding.problems = []) :
    walked.context = context := by
  rw [h.context, hnone]
  rfl

/-- The collector that a walk was given holds what was found, and the context under it is the one before. -/
theorem Finds.popBranch (h : walked.Finds context.pushBranch finding) :
    walked.context.popBranch = (.ofList finding.problems, context) := by
  rw [h.context, Context.popBranch_collectAll]

theorem reports_andThen (walked : Walked) (next : Walk) : (walked.andThen next).reports =
    walked.reports ++ (next walked.value walked.context walked.nextSerial).reports :=
  List.filterMap_append

theorem Finds.andThen (h : walked.Finds context finding) {next : Walk} (traverse : Value → Nat → Finding)
    (hnext : (next walked.value walked.context walked.nextSerial).Finds walked.context
      (traverse finding.value finding.nextSerial)) :
    (walked.andThen next).Finds context
      { traverse finding.value finding.nextSerial with
        problems := finding.problems ++ (traverse finding.value finding.nextSerial).problems } := by
  refine ⟨hnext.value, ?_, hnext.nextSerial, ?_⟩
  · rw [Context.collectAll_append, ← h.context]
    exact hnext.context
  · rw [reports_andThen, List.append_eq_nil_iff, List.append_eq_nil_iff, h.reports, hnext.reports]

/-- Going on unless there are more problems is going on unless something was found. -/
theorem Finds.andThenUnless (h : walked.Finds context finding) {next : Walk} {traverse : Value → Nat → Finding}
    (hnext : ∀ v serial, (next v context serial).Finds context (traverse v serial)) :
    (walked.andThenUnless context.errorCount next).Finds context (finding.andThen traverse) := by
  have hcount := context.errorCount_lt_iff finding.problems
  rw [← h.context] at hcount
  unfold Walked.andThenUnless Finding.andThen
  by_cases hnone : finding.problems = []
  · have hcontext := h.context_eq hnone
    have hlater : (next walked.value walked.context walked.nextSerial).Finds walked.context
        (traverse finding.value finding.nextSerial) := by
      rw [h.value, h.nextSerial, hcontext]
      exact hnext _ _
    have hall := h.andThen traverse hlater
    rw [if_neg (fun hlt => hcount.mp hlt hnone), if_pos (Finding.isSound_iff.mpr hnone)]
    rwa [hnone, List.nil_append] at hall
  · rw [if_pos (hcount.mpr hnone), if_neg (fun hsound => hnone (Finding.isSound_iff.mp hsound))]
    exact h

theorem Finds.backInto {context : Context} {key : PropKey} (h : walked.Finds (context.enter key) finding)
    (whole : Value) (replace : Bool) :
    (walked.backInto whole key replace).Finds context (finding.backInto whole key replace) := by
  have hcontext : walked.context.leave = context.collectAll finding.problems := by
    rw [h.context, Context.collectAll_enter]
  cases whole with
  | object o =>
      cases replace with
      | true =>
          refine ⟨?_, hcontext, congrArg (· + 1) h.nextSerial, h.reports⟩
          simp only [Walked.backInto, Finding.backInto, if_true, h.value, h.nextSerial]
      | false => exact ⟨rfl, hcontext, h.nextSerial, h.reports⟩
  | _ => exact ⟨rfl, hcontext, h.nextSerial, h.reports⟩

end Walked

variable [Behaviour]

-- ---------------------------------------------------------------------------
-- Transforms and rules
-- ---------------------------------------------------------------------------

namespace Transform

theorem walk_finds (transform : Transform) (v : Value) (context : Context) (serial : Nat) :
    (transform.walk v context serial).Finds context (transform.traverse context.scene v serial) := by
  have hfold (reports : List (ProblemCode Problem × Value)) (now : Context) (hpath : now.path = context.path) :
      reports.foldl (fun context report => context.add report.1 report.2) now =
        now.collectAll (reports.map fun report => .mk context.path report.1 report.2) := by
    induction reports generalizing now with
    | nil => rfl
    | cons report rest ih =>
        have hadd : now.add report.1 report.2 = now.collect (.mk context.path report.1 report.2) := by
          rw [Context.add, Context.problem, hpath]
        rw [List.foldl_cons, hadd, ih _ ((now.collect_gains _).path.trans hpath)]
        rfl
  refine ⟨rfl, hfold _ context rfl, rfl, ?_⟩
  simp [Walked.reports, walk, traverse, List.filterMap_map, Function.comp_def, Incident.problem?]

theorem walkAll_finds (transforms : List Transform) (v : Value) (context : Context) (serial : Nat) :
    (walkAll context.errorCount transforms v context serial).Finds context
      (traverseAll context.scene transforms v serial) := by
  induction transforms generalizing v serial with
  | nil => exact Walked.finds_quiet v context serial
  | cons transform rest ih => exact (transform.walk_finds v context serial).andThenUnless ih

end Transform

namespace Node

/-- Walking from any context finds what the traversal does in the scene of the context. -/
def WalkFinds (node : Node) : Prop :=
  ∀ v context serial, (node.walk v context serial).Finds context (node.traverse context.scene v serial)

theorem walkAll_finds {rules : List Node} (h : ∀ r ∈ rules, r.WalkFinds) (v : Value) (context : Context)
    (serial : Nat) : (walkAll rules v context serial).Finds context (traverseAll rules context.scene v serial) := by
  induction rules generalizing v context serial with
  | nil => exact Walked.finds_quiet v context serial
  | cons rule rest ih =>
      obtain ⟨hrule, hrest⟩ := List.forall_mem_cons.mp h
      have hfirst := hrule v context serial
      have hlater := ih hrest (rule.walk v context serial).value (rule.walk v context serial).context
        (rule.walk v context serial).nextSerial
      rw [traverseAll, walkAll, ← Context.scene_collectAll, ← hfirst.context]
      refine hfirst.andThen (traverseAll rest (rule.walk v context serial).context.scene) ?_
      rwa [hfirst.value, hfirst.nextSerial] at hlater ⊢

theorem walkOption_finds {node : Option Node} (h : ∀ n ∈ node, n.WalkFinds) (v : Value) (context : Context)
    (serial : Nat) : (walkOption node v context serial).Finds context (traverseOption node context.scene v serial) := by
  cases node with
  | none => exact Walked.finds_quiet v context serial
  | some node => exact h node rfl v context serial

-- ---------------------------------------------------------------------------
-- Unions
-- ---------------------------------------------------------------------------

theorem getElem?_walks (branches : List Node) (place : Nat) :
    (walks branches)[place]? = branches[place]?.map fun b v context serial => b.walk v context serial := by
  induction branches generalizing place with
  | nil => rfl
  | cons branch rest ih =>
      cases place with
      | zero => rfl
      | succ place => exact ih place

/-- How the candidates of a union fare in a walk and in a traversal. -/
inductive TriesFind (context : Context) : Tries → Attempts → Prop where
  | accepted {walked : Walked} {finding : Finding} (h : walked.Finds context finding) (hsound : finding.problems = []) :
      TriesFind context (.accepted walked) (.accepted finding)
  | failed {failures : List Problems} {serial : Nat} {incidents : List Incident}
      (hreported : incidents.filterMap Incident.problem? = [] ↔ failures = [])
      (hfailures : ∀ f ∈ failures, f.list ≠ []) :
      TriesFind context (.failed failures context serial incidents) (.failed failures serial)

/-- Trying the candidates among the remaining branches in turn is trying the eligible ones of them. -/
theorem tryEach_finds {branches : List Node} (h : ∀ b ∈ branches, b.WalkFinds) (eligible : Nat → Bool)
    (place : Nat) {rest : List Node} (hrest : branches.drop place = rest) (failures : List Problems)
    (incidents : List Incident) (hreported : incidents.filterMap Incident.problem? = [] ↔ failures = [])
    (hfailures : ∀ f ∈ failures, f.list ≠ []) (v : Value) (context : Context) (serial : Nat) :
    TriesFind context
      (tryEach (walks branches) v failures incidents ((List.range' place rest.length).filter eligible) context serial)
      (tryBranches eligible place failures rest context.scene.apart v serial) := by
  induction rest generalizing place failures incidents serial with
  | nil =>
      refine .failed (hreported.trans List.reverse_eq_nil_iff.symm) fun f hf => ?_
      exact hfailures f (List.mem_reverse.mp hf)
  | cons branch rest ih =>
      have hget : branches[place]? = some branch := by
        rw [← List.head?_drop, hrest]
        rfl
      have hnext : branches.drop (place + 1) = rest := by
        rw [← List.drop_drop, hrest]
        rfl
      rw [List.length_cons, List.range'_succ, tryBranches]
      cases heligible : eligible place with
      | false =>
          rw [List.filter_cons_of_neg (by simp [heligible]), if_neg Bool.false_ne_true]
          exact ih _ hnext _ _ hreported hfailures serial
      | true =>
          have hfound := h branch (List.mem_of_getElem? hget) v context.pushBranch serial
          change (branch.walk v context.pushBranch serial).Finds _
            (branch.traverse context.scene.apart v serial) at hfound
          rw [List.filter_cons_of_pos heligible, if_pos rfl, tryEach, getElem?_walks, hget]
          simp only [Option.map_some, hfound.popBranch, Finding.isEmpty_ofList]
          by_cases hsound : (branch.traverse context.scene.apart v serial).isSound = true
          · rw [if_pos hsound, if_pos hsound]
            have hnone := Finding.isSound_iff.mp hsound
            refine .accepted ⟨hfound.value, ?_, hfound.nextSerial, hfound.reports⟩ hnone
            rw [hnone]
            rfl
          · rw [if_neg hsound, if_neg hsound, hfound.nextSerial]
            have hproblems := fun hnone => hsound (Finding.isSound_iff.mpr hnone)
            refine ih _ hnext _ _ ?_ (List.forall_mem_cons.mpr ⟨Problems.ofList_list_ne_nil hproblems, hfailures⟩) _
            rw [List.filterMap_append, List.append_eq_nil_iff]
            exact ⟨fun hnone => absurd (hfound.reports.mp hnone.2) hproblems, fun hnone => by cases hnone⟩

omit [Behaviour] in
theorem TriesFind.conclude {context : Context} {tries : Tries} {attempts : Attempts}
    (h : TriesFind context tries attempts) (description : String) (v : Value) :
    (tries.conclude description v).Finds context (attempts.conclude context.scene description v) := by
  cases h with
  | accepted hfinds _ => exact hfinds
  | @failed failures serial incidents hreported hfailures =>
      match failures with
      | [] => exact Walked.finds_report _ v context serial
      | [failure] =>
          refine ⟨rfl, rfl, rfl, ?_⟩
          have hne := hfailures failure List.mem_cons_self
          exact ⟨fun hnone => (List.cons_ne_nil _ _ (hreported.mp hnone)).elim, fun hnone => absurd hnone hne⟩
      | first :: second :: rest =>
          refine ⟨rfl, rfl, rfl, ?_⟩
          simp [Tries.conclude, Attempts.conclude, Walked.reports, Walked.andThen, Walked.report, Scene.report,
            Incident.problem?]

/-- Places that ascend and are those of branches, so that trying them keeps the order of the union. -/
structure InOrder (places : List Nat) (branches : Nat) : Prop where
  ascending : places.Pairwise (· < ·)
  lt_length : ∀ place ∈ places, place < branches

omit [Behaviour] in
theorem candidatePlaces_inOrder {discriminant : Option Discriminant} {branches : Nat}
    (h : ∀ d, discriminant = some d → Discriminant.Partition branches d.cases) (v : Value) :
    InOrder (candidatePlaces discriminant branches v) branches := by
  cases discriminant with
  | none => exact ⟨List.pairwise_lt_range, fun place => List.mem_range.mp⟩
  | some d =>
      have hpartition := h d rfl
      simp only [candidatePlaces, Discriminant.candidates]
      split
      · exact ⟨.nil, List.forall_mem_nil _⟩
      · split
        · rename_i c hfind
          have hc := List.mem_of_find?_eq_some hfind
          refine ⟨hpartition.ascending c hc, fun place hplace => List.mem_range.mp (hpartition.each.mem_iff.mp ?_)⟩
          exact List.mem_flatMap.mpr ⟨c, hc, hplace⟩
        · exact ⟨.nil, List.forall_mem_nil _⟩

omit [Behaviour] in
theorem InOrder.filter_eq {places : List Nat} {branches : Nat} (h : InOrder places branches) :
    (List.range' 0 branches).filter places.contains = places := by
  rw [← List.range_eq_range']
  refine (List.pairwise_lt_range.filter _).eq_of_mem_iff h.ascending fun place => ?_
  rw [List.mem_filter, List.mem_range, List.contains_iff_mem]
  exact and_iff_right_of_imp (h.lt_length place)

-- ---------------------------------------------------------------------------
-- Nodes
-- ---------------------------------------------------------------------------

theorem union_finds {branches : List Node} (h : ∀ b ∈ branches, b.WalkFinds) {ordered : Bool} {profile : Profile}
    (hpartition : ∀ d, profile.discriminant = some d → Discriminant.Partition branches.length d.cases) (v : Value)
    (context : Context) (serial : Nat) : (Content.walk profile (.union branches ordered) v context serial).Finds context
      (Content.traverse profile (.union branches ordered) context.scene v serial) := by
  have htries (eligible : Nat → Bool) := tryEach_finds h eligible 0 (List.drop_zero ..) [] [] (iff_of_true rfl rfl)
    (List.forall_mem_nil _) v context serial
  simp only [Content.walk, Content.traverse]
  refine TriesFind.conclude ?_ profile.description v
  cases hd : profile.discriminant with
  | none =>
      have hall := htries fun _ => true
      rwa [List.filter_true, ← List.range_eq_range'] at hall
  | some d =>
      have horder := candidatePlaces_inOrder hpartition v
      rw [hd] at horder
      have hcandidates := htries (candidatePlaces (some d) branches.length v).contains
      rwa [horder.filter_eq] at hcandidates

theorem content_finds {content : Content Node} {profile : Profile} (h : ∀ c ∈ content.children, c.WalkFinds)
    (hpartition : ∀ branches ordered, content = .union branches ordered → ∀ d, profile.discriminant = some d →
      Discriminant.Partition branches.length d.cases) (v : Value) (context : Context) (serial : Nat) :
    (Content.walk profile content v context serial).Finds context
      (Content.traverse profile content context.scene v serial) := by
  cases content with
  | union branches ordered => exact union_finds h (hpartition branches ordered rfl) v context serial
  | morph input output transforms =>
      obtain ⟨hinput, houtput⟩ := List.forall_mem_cons.mp h
      have hfirst := hinput v context serial
      refine (hfirst.andThenUnless fun v serial => Transform.walkAll_finds transforms v context serial).andThenUnless ?_
      exact fun v serial => walkOption_finds (fun o ho => houtput o (Option.mem_toList.mpr ho)) v context serial
  | intersection basis constraints =>
      obtain ⟨hbasis, hrest⟩ := List.forall_mem_append.mp h
      have hfirst := walkOption_finds (fun b hb => hbasis b (Option.mem_toList.mpr hb)) v context serial
      exact hfirst.andThenUnless fun v serial => walkAll_finds hrest v context serial
  | required key value =>
      rw [Content.walk, Content.traverse]
      cases v.get? key with
      | none =>
          have hback := (Walked.finds_report (.missing key) v (context.enter key) serial).backInto v false
          cases v <;> exact hback
      | some x => exact (h value List.mem_cons_self x (context.enter key) serial).backInto v value.includesMorph
  | optional key value =>
      rw [Content.walk, Content.traverse]
      cases v.get? key with
      | none => exact Walked.finds_quiet v context serial
      | some x => exact (h value List.mem_cons_self x (context.enter key) serial).backInto v value.includesMorph
  | _ =>
      simp only [Content.walk, Content.traverse]
      split
      · exact Walked.finds_quiet v context serial
      · exact Walked.finds_report _ v context serial

omit [Behaviour] in
/-- A written union has its branches sorted by its discriminant, if it has one. -/
theorem Written.partition {registry : Registry} {node : Node} (h : node.Written registry) {branches : List Node}
    {ordered : Bool} (hc : node.content = .union branches ordered) {d : Discriminant}
    (hd : node.discriminant = some d) : Discriminant.Partition branches.length d.cases := by
  obtain ⟨branches', ordered', hc', hbranches⟩ := h.discriminant d hd
  obtain ⟨rfl, -⟩ := Content.union.inj (hc.symm.trans hc')
  exact Discriminant.partition_ofBranches? hbranches

/-- A walk finds what the traversal does. -/
theorem walkFinds {registry : Registry} {node : Node} (hwritten : node.Everywhere (Written registry)) :
    node.WalkFinds := by
  induction node using induct with
  | step content caption profile ih =>
      intro v context serial
      rw [walk, traverse]
      split
      · exact Walked.finds_quiet v context serial
      · exact content_finds (fun c hc => ih c hc (hwritten.child hc))
          (fun _ _ hc _ => hwritten.self.partition hc) v context serial

-- ---------------------------------------------------------------------------
-- The choice of a branch
-- ---------------------------------------------------------------------------

/-- Candidates of a union that are tried one after another all report something. The numbers are the next free serial
numbers before and after. -/
inductive AllReport (branches : List Node) (v : Value) (context : Context) : List Nat → Nat → Nat → Prop where
  | nil {serial : Nat} : AllReport branches v context [] serial serial
  | cons {place : Nat} {rest : List Nat} {branch : Node} {serial last : Nat} (hbranch : branches[place]? = some branch)
      (hreports : (branch.walk v context.pushBranch serial).reports ≠ [])
      (hrest : AllReport branches v context rest (branch.walk v context.pushBranch serial).nextSerial last) :
      AllReport branches v context (place :: rest) serial last

/-- How a union is to go. The first of its candidates that reports nothing in a collector of its own gives the value,
and the context is as it was; if there is none, the value stays and something is reported. -/
inductive Chooses (branches : List Node) (places : List Nat) (v : Value) (context : Context) (serial : Nat)
    (walked : Walked) : Prop where
  | accepted {before after : List Nat} {place now : Nat} {branch : Node} (hplaces : places = before ++ place :: after)
      (hbefore : AllReport branches v context before serial now) (hbranch : branches[place]? = some branch)
      (hquiet : (branch.walk v context.pushBranch now).reports = [])
      (hcollector : (branch.walk v context.pushBranch now).context = context.pushBranch)
      (hvalue : walked.value = (branch.walk v context.pushBranch now).value) (hcontext : walked.context = context)
      (hserial : walked.nextSerial = (branch.walk v context.pushBranch now).nextSerial) (hreports : walked.reports = [])
  | refused (hall : AllReport branches v context places serial walked.nextSerial) (hvalue : walked.value = v)
      (hreports : walked.reports ≠ [])

theorem Chooses.cons {branches : List Node} {place : Nat} {rest : List Nat} {v : Value} {context : Context}
    {branch : Node} {serial : Nat} {walked : Walked} (hbranch : branches[place]? = some branch)
    (hreports : (branch.walk v context.pushBranch serial).reports ≠ [])
    (h : Chooses branches rest v context (branch.walk v context.pushBranch serial).nextSerial walked) :
    Chooses branches (place :: rest) v context serial walked := by
  cases h with
  | accepted hplaces hbefore hget hquiet hcollector hvalue hcontext hserial hnone =>
      exact .accepted (congrArg (place :: ·) hplaces) (.cons hbranch hreports hbefore) hget hquiet hcollector hvalue
        hcontext hserial hnone
  | refused hall hvalue hsome => exact .refused (.cons hbranch hreports hall) hvalue hsome

/-- A choice is about the value, the context and whether something was reported. -/
theorem Chooses.congr {branches : List Node} {places : List Nat} {v : Value} {context : Context} {serial : Nat}
    {walked walked' : Walked} (h : Chooses branches places v context serial walked)
    (hvalue : walked'.value = walked.value) (hcontext : walked'.context = walked.context)
    (hserial : walked'.nextSerial = walked.nextSerial)
    (hreports : walked'.reports = walked.reports) : Chooses branches places v context serial walked' := by
  cases h with
  | accepted hplaces hbefore hget hquiet hcollector hvalue' hcontext' hserial' hnone =>
      exact .accepted hplaces hbefore hget hquiet hcollector (hvalue.trans hvalue') (hcontext.trans hcontext')
        (hserial.trans hserial') (hreports.trans hnone)
  | refused hall hvalue' hsome => exact .refused (hserial ▸ hall) (hvalue.trans hvalue') (hreports ▸ hsome)

omit [Behaviour] in
/-- When all candidates failed, the union reports something if they did, or if there are none. -/
theorem conclude_failed {failures : List Problems} (context : Context) (serial : Nat) {incidents : List Incident}
    (hreported : incidents.filterMap Incident.problem? = [] ↔ failures = []) (description : String) (v : Value) :
    ((Tries.failed failures context serial incidents).conclude description v).value = v ∧
      ((Tries.failed failures context serial incidents).conclude description v).nextSerial = serial ∧
      ((Tries.failed failures context serial incidents).conclude description v).reports ≠ [] := by
  match failures with
  | [] => exact ⟨rfl, rfl, List.cons_ne_nil _ _⟩
  | [failure] => exact ⟨rfl, rfl, fun hnone => List.cons_ne_nil _ _ (hreported.mp hnone)⟩
  | first :: second :: rest =>
      refine ⟨rfl, rfl, fun hnone => ?_⟩
      have hall : incidents.filterMap Incident.problem? ++ [context.problem (.union description _) v] = [] :=
        (Walked.reports_andThen _ _).symm.trans hnone
      exact List.append_ne_nil_of_right_ne_nil _ (List.cons_ne_nil _ _) hall

/-- Trying the candidates in turn is a choice among them, whatever was found before. -/
theorem tryEach_chooses {branches : List Node} (h : ∀ b ∈ branches, b.WalkFinds) {places : List Nat}
    (hplaces : ∀ place ∈ places, place < branches.length) (failures : List Problems) (incidents : List Incident)
    (hreported : incidents.filterMap Incident.problem? = [] ↔ failures = []) (description : String) (v : Value)
    (context : Context) (serial : Nat) : Chooses branches places v context serial
      ((tryEach (walks branches) v failures incidents places context serial).conclude description v) := by
  induction places generalizing failures incidents serial with
  | nil =>
      obtain ⟨hvalue, hserial, hreports⟩ := conclude_failed context serial
        (hreported.trans List.reverse_eq_nil_iff.symm) description v
      refine .refused ?_ hvalue hreports
      rw [tryEach, hserial]
      exact .nil
  | cons place rest ih =>
      obtain ⟨hplace, hrest⟩ := List.forall_mem_cons.mp hplaces
      have hget : branches[place]? = some branches[place] := List.getElem?_eq_getElem hplace
      have hfound := h branches[place] (List.getElem_mem hplace) v context.pushBranch serial
      generalize branches[place].traverse context.pushBranch.scene v serial = finding at hfound
      generalize branches[place] = branch at hget hfound
      simp only [tryEach, getElem?_walks, hget, Option.map_some, hfound.popBranch, Finding.isEmpty_ofList]
      by_cases hsound : finding.isSound = true
      · have hnone := Finding.isSound_iff.mp hsound
        have hquiet := hfound.reports.mpr hnone
        rw [if_pos hsound]
        have hfirst : place :: rest = [] ++ place :: rest := rfl
        exact .accepted hfirst .nil hget hquiet (hfound.context_eq hnone) rfl rfl rfl hquiet
      · have hreports := fun hnone => hsound (Finding.isSound_iff.mpr (hfound.reports.mp hnone))
        rw [if_neg hsound]
        refine .cons hget hreports (ih hrest _ _ ?_ _)
        rw [List.filterMap_append, List.append_eq_nil_iff]
        exact ⟨fun hnone => absurd hnone.2 hreports, fun hnone => by cases hnone⟩

/-- A union that is walked chooses among its candidates, also where an allowed value needs no closer look. -/
theorem walk_chooses {registry : Registry} {node : Node} (hwritten : node.Everywhere (Written registry))
    {branches : List Node} {ordered : Bool} (hc : node.content = .union branches ordered) (v : Value)
    (context : Context) (serial : Nat) :
    InOrder (candidatePlaces node.discriminant branches.length v) branches.length ∧
      Chooses branches (candidatePlaces node.discriminant branches.length v) v context serial
        (node.walk v context serial) := by
  have horder := candidatePlaces_inOrder (fun _ => hwritten.self.partition hc) v
  refine ⟨horder, ?_⟩
  cases node with
  | mk content caption profile =>
      change content = _ at hc
      subst hc
      have hbranches (b : Node) (hb : b ∈ branches) : b.WalkFinds := walkFinds (hwritten.child hb)
      have hchooses := tryEach_chooses hbranches horder.lt_length [] [] (iff_of_true rfl rfl) profile.description v
        context serial
      rw [walk]
      split
      · rename_i hquick
        rw [Bool.and_eq_true, Bool.not_eq_true'] at hquick
        -- The walk of the branches would have come to the same end, as nothing in them changes the value.
        have hmorph := (includesMorph_eq_false hwritten).mp hquick.1
        have hexplains : (Content.traverse profile (.union branches ordered) context.scene v serial).Explains
            (Content.allows profile.discriminant (.union branches ordered) v) v serial :=
          content_explains profile (fun b hb => explained (hwritten.child hb) (hmorph.child hb)) hmorph.self
            (fun b hb => (includesMorph_eq_false (hwritten.child hb)).mpr (hmorph.child hb)) context.scene v serial
        rw [hquick.2] at hexplains
        have hnone := Finding.isSound_iff.mp hexplains.isSound
        have hfinds : (Content.walk profile (.union branches ordered) v context serial).Finds context
            (Content.traverse profile (.union branches ordered) context.scene v serial) :=
          union_finds hbranches (fun _ => hwritten.self.partition rfl) v context serial
        refine hchooses.congr ?_ ?_ ?_ (hfinds.reports.mpr hnone).symm
        · exact (hfinds.value.trans hexplains.value).symm
        · exact (hfinds.context_eq hnone).symm
        · exact (hfinds.nextSerial.trans hexplains.nextSerial).symm
      · exact hchooses

-- ---------------------------------------------------------------------------
-- Applying a node
-- ---------------------------------------------------------------------------

/-- Applying a node is walking the value in a new context. -/
theorem apply_eq_walk {registry : Registry} {node : Node} (hwritten : node.Everywhere (Written registry)) (v : Value)
    (serial : Nat) : node.apply v serial =
      ((node.walk v .start serial).context.finish (node.walk v .start serial).value,
        (node.walk v .start serial).nextSerial) := by
  have hfinds := walkFinds hwritten v .start serial
  change (node.walk v .start serial).Finds .start (node.traverse .start v serial) at hfinds
  have hgains := Context.start.collectAll_gains (node.traverse .start v serial).problems
  rw [← hfinds.context] at hgains
  have hroot : (node.walk v .start serial).context.root = .ofList (node.traverse .start v serial).problems := by
    have hinnermost := hgains.innermost
    rwa [Context.innermost, List.length_eq_zero_iff.mp hgains.depth] at hinnermost
  rw [Context.finish, hroot, Finding.isEmpty_ofList, hfinds.value, hfinds.nextSerial]
  rfl

/-- A node gives a result exactly if its walk in a new context reports nothing but what is given up. -/
theorem apply_isOk_iff {registry : Registry} {node : Node} (hwritten : node.Everywhere (Written registry)) (v : Value)
    (serial : Nat) : (∃ w, (node.apply v serial).1 = .ok w) ↔ (node.walk v .start serial).reports = [] := by
  rw [(walkFinds hwritten v .start serial).reports, ← Finding.isSound_iff]
  change _ ↔ (node.traverse .start v serial).isSound = true
  simp only [apply]
  cases (node.traverse .start v serial).isSound with
  | true => exact ⟨fun _ => rfl, fun _ => ⟨_, rfl⟩⟩
  | false => exact ⟨nofun, nofun⟩

/-- Walking a value with a node, in any context and whatever the transforms do. The path and the depth of the stack are
the same afterwards, all collectors but the innermost are untouched, and to the innermost some problems were added, none
exactly if nothing was reported but what is given up. A union chooses the first candidate in its order that reports
nothing and then leaves the context as it was. Applying the node is such a walk in a new context, which gives a result
exactly if nothing was reported but what is given up. -/
theorem walk_keeps_context {adopting : Prop} {space : Space} (hreachable : space.Reachable adopting) {node : Node}
    (hnode : space.Holds node) (v : Value) (context : Context) (serial : Nat) :
    (∃ problems, context.Gains (node.walk v context serial).context problems ∧
        (problems = [] ↔ (node.walk v context serial).reports = [])) ∧
      (∀ branches ordered, node.content = .union branches ordered →
        InOrder (candidatePlaces node.discriminant branches.length v) branches.length ∧
          Chooses branches (candidatePlaces node.discriminant branches.length v) v context serial
            (node.walk v context serial)) ∧
      node.apply v serial = ((node.walk v .start serial).context.finish (node.walk v .start serial).value,
        (node.walk v .start serial).nextSerial) ∧
      ((∃ w, (node.apply v serial).1 = .ok w) ↔ (node.walk v .start serial).reports = []) := by
  have hwritten := hreachable.valid.everywhere_written hnode
  have hfinds := walkFinds hwritten v context serial
  refine ⟨⟨_, ?_, hfinds.reports.symm⟩, fun branches ordered hc => walk_chooses hwritten hc v context serial,
    apply_eq_walk hwritten v serial, apply_isOk_iff hwritten v serial⟩
  rw [hfinds.context]
  exact context.collectAll_gains _

omit [Behaviour] in
/-- A string that spells no integer fails the branch that would parse it and is accepted by the next, so that nothing is
reported in the end, while a number fails both. -/
theorem parsed_or_plain_keeps_context : ∃ (space : Space) (node : Node) (branches : List Node) (ordered : Bool),
    @Space.Reachable Stock.behaviour False space ∧ space.Holds node ∧ node.content = .union branches ordered ∧
      ∃ (word number : Value) (context : Context),
        (∃ w, (@apply Stock.behaviour node word 0).1 = .ok w) ∧
        (¬ ∃ w, (@apply Stock.behaviour node number 0).1 = .ok w) ∧
        @Chooses Stock.behaviour branches (candidatePlaces node.discriminant branches.length word) word context 0
          (@walk Stock.behaviour node word context 0) ∧
        ∃ problems, context.Gains (@walk Stock.behaviour node number context 0).context problems := by
  let _ := Stock.behaviour
  let parsing : Definition := .map [("in", .string "string"), ("morph", .transform ⟨0, none, "parseInt"⟩)]
  let written : Definition := .map [("branches", .list [parsing, .string "string"]), ("ordered", .bool true)]
  let word : Value := .string "word"
  let number : Value := .number (.ofNat 1)
  let context : Context := ⟨[.string "k"], .empty, [.empty]⟩
  have hyields : (written.readRoot.yields (.new 0 .standard) fun n => n.kind = .union &&
      (n.walk word .start 0).reports.isEmpty && !(n.walk number .start 0).reports.isEmpty) = true := by
    decide +kernel
  obtain ⟨node, hread, htest⟩ := SpaceM.yields_iff.mp hyields
  obtain ⟨hreachable, -, hholds⟩ :=
    (@Space.Reachable.new _ False 0 .standard).read (d := written) (List.forall_mem_nil _)
  simp only [Bool.and_eq_true, decide_eq_true_eq, Bool.not_eq_true', List.isEmpty_iff,
    List.isEmpty_eq_false_iff] at htest
  obtain ⟨⟨hkind, hquiet⟩, hreports⟩ := htest
  rw [kind] at hkind
  cases hc : node.content with
  | union branches ordered =>
      obtain ⟨-, hchooses, -, hword⟩ := walk_keeps_context hreachable (hholds node hread) word context 0
      obtain ⟨⟨problems, hgains, -⟩, -, -, hnumber⟩ :=
        walk_keeps_context hreachable (hholds node hread) number context 0
      exact ⟨_, node, branches, ordered, hreachable, hholds node hread, hc, word, number, context, hword.mpr hquiet,
        fun hok => hreports (hnumber.mp hok), (hchooses branches ordered hc).2, problems, hgains⟩
  | _ => rw [hc] at hkind; cases hkind

end Node

end SchemaAlgebra
