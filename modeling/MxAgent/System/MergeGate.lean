import MxAgent.System.DriverRuns

/-! The merge gate of the delivery driver. One run merges at most once, after its gates, its
commit, its push, a green watch over the checks and a confirmation, and never if the state it
loaded has merged before. The watch is over the number of the pull request: a pull request that
is found or created without a number is merged without one. -/
namespace MxAgent.System.MergeGate

open Protocol Adw System.DriverRuns EffectLog EffectLog.Program

/-- What has to stand before a merge. -/
inductive Step where
  | gate (command : List String)
  | commit
  | push
  | green (pr : Number)
  | confirmed
  deriving DecidableEq

def stepOf : LogEntry → Option Step
  | .called (.runCmd command) (.ok rc) => if rc = 0 then some (.gate command) else none
  | .called (.commitAll _) (.ok result) => if result.ok then some .commit else none
  | .called (.push _) (.ok result) => if result.ok then some .push else none
  | .marked (.ciFixLoop pr green) => if green then some (.green pr) else none
  | .marked .confirmMerge => some .confirmed
  | _ => none

def mergeOf : LogEntry → Option PrRef
  | .called (.squashMerge pr _) _ => some pr
  | _ => none

def lookupOf : LogEntry → Option (Option Number)
  | .called (.prForBranch _ _) (.ok found) => (truthy found).map prNumberFromUrl
  | .called (.createPr ..) (.ok created) => some created.number
  | _ => none

def loadsMerged : LogEntry → Bool
  | .called (.readState _) (.ok file) => (AdwState.load file).any fun state => state.isDone "merge"
  | _ => false

def passed (log : List LogEntry) : List Step := log.filterMap stepOf

def merges (log : List LogEntry) : List PrRef := log.filterMap mergeOf

/-- The number that was looked up last. -/
def lookedUp (log : List LogEntry) : Option (Option Number) := (log.filterMap lookupOf).getLast?

/-- The steps before a merge of a pull request with a number, in their order. -/
def stepsBefore (testCmd : String) (number : Option Number) : List Step :=
  (finalizeGates testCmd).map (fun gate => .gate (shellSplit gate)) ++ [.commit, .push] ++
    number.toList.map .green ++ [.confirmed]

/-- One merge at most, with its steps before it, and none after a merged state. -/
structure Guarded (testCmd : String) (log : List LogEntry) : Prop where
  once : (merges log).length ≤ 1
  gated : ∀ before entry after pr, log = before ++ entry :: after → mergeOf entry = some pr →
    ∃ number, pr = .number number ∧ (stepsBefore testCmd (some number)).Sublist (passed before)
  not_again : ∀ entry ∈ log, loadsMerged entry → merges log = []

/-- Whenever the driver comes to a merge, its pull request has a number. -/
def Numbered (log : List LogEntry) : Prop :=
  ∀ before entry after pr, log = before ++ entry :: after → mergeOf entry = some pr →
    ∃ number, lookedUp before = some (some number)

/-! ## Quiet entries -/

variable {entry : LogEntry} {log before after : List LogEntry} {state : AdwState} {gh : Gh}
  {pr : PrRef}

/-- A quiet entry merges nothing, looks nothing up and loads nothing. -/
theorem of_quiet (h : Quiet entry) :
    mergeOf entry = none ∧ lookupOf entry = none ∧ loadsMerged entry = false := by
  cases entry with
  | marked label => exact ⟨rfl, rfl, rfl⟩
  | called effect answer =>
    cases effect <;> first | exact ⟨rfl, rfl, rfl⟩ | exact absurd trivial h

/-! ## The way to the merge -/

/-- A log without merges, of a run that has to finish a state: a merge in the loaded state is one in
this. -/
structure Started (state : AdwState) (log : List LogEntry) : Prop where
  unmerged : merges log = []
  loaded : ∀ entry ∈ log, loadsMerged entry → state.isDone "merge"

/-- A log on the way to a merge: none yet and none loaded, these steps passed, and the number looked
up, if any. -/
structure Stage (steps : List Step) (found : Option (Option Number)) (log : List LogEntry) :
    Prop where
  unmerged : merges log = []
  unloaded : ∀ entry ∈ log, loadsMerged entry = false
  passed : steps.Sublist (passed log)
  lookedUp : ∀ number, found = some number → lookedUp log = some number

theorem merges_append (h : merges log = [])
    (hMerge : mergeOf entry = none) : merges (log ++ [entry]) = [] := by
  rw [merges, List.filterMap_append, ← merges, h, List.filterMap_cons_none hMerge]
  rfl

theorem Started.append (h : Started state log)
    (hQuiet : Quiet entry) : Started state (log ++ [entry]) where
  unmerged := merges_append h.unmerged (of_quiet hQuiet).1
  loaded := by
    intro found hFound hLoads
    rcases List.mem_append.mp hFound with hOld | hNew
    · exact h.loaded found hOld hLoads
    · rw [List.mem_singleton.mp hNew, (of_quiet hQuiet).2.2] at hLoads
      cases hLoads

theorem Started.mono {before after : AdwState} (h : Started before log)
    (hSubset : before.completedPhases ⊆ after.completedPhases) : Started after log where
  unmerged := h.unmerged
  loaded entry hEntry hLoads := by
    have hDone := h.loaded entry hEntry hLoads
    rw [AdwState.isDone, List.contains_iff_mem] at hDone ⊢
    exact hSubset hDone

namespace Stage

variable {steps : List Step} {found : Option (Option Number)} {log : List LogEntry}
  {entry : LogEntry}

theorem extend {known : Option (Option Number)} (h : Stage steps found log)
    (hMerge : mergeOf entry = none) (hLoads : loadsMerged entry = false)
    (hKnown : ∀ number, known = some number → MergeGate.lookedUp (log ++ [entry]) = some number) :
    Stage (steps ++ (stepOf entry).toList) known (log ++ [entry]) where
  unmerged := merges_append h.unmerged hMerge
  unloaded := List.forall_mem_append.mpr ⟨h.unloaded, List.forall_mem_singleton.mpr hLoads⟩
  passed := by
    rw [MergeGate.passed, List.filterMap_append]
    refine h.passed.append ?_
    cases hStep : stepOf entry with
    | none => exact List.nil_sublist _
    | some step => rw [List.filterMap_cons_some hStep]; exact List.Sublist.refl _
  lookedUp := hKnown

theorem weaken {fewer : List Step} (h : Stage steps found log) (hFewer : fewer.Sublist steps) :
    Stage fewer found log :=
  { h with passed := hFewer.trans h.passed }

theorem append (h : Stage steps found log) (hQuiet : Quiet entry) :
    Stage (steps ++ (stepOf entry).toList) found (log ++ [entry]) := by
  refine h.extend (of_quiet hQuiet).1 (of_quiet hQuiet).2.2 fun number hFound => ?_
  rw [MergeGate.lookedUp, List.filterMap_append,
    List.filterMap_cons_none (of_quiet hQuiet).2.1, List.filterMap_nil, List.append_nil]
  exact h.lookedUp number hFound

theorem keep (h : Stage steps found log) (hQuiet : Quiet entry) :
    Stage steps found (log ++ [entry]) :=
  (h.append hQuiet).weaken (List.sublist_append_left _ _)

theorem forget (h : Stage steps found log) (hMerge : mergeOf entry = none)
    (hLoads : loadsMerged entry = false) : Stage steps none (log ++ [entry]) := by
  refine (h.extend hMerge hLoads ?_).weaken (List.sublist_append_left _ _)
  intro number hNone
  cases hNone

theorem lookup {number : Option Number} (h : Stage steps found log)
    (hMerge : mergeOf entry = none) (hLoads : loadsMerged entry = false)
    (hLookup : lookupOf entry = some number) : Stage steps (some number) (log ++ [entry]) := by
  refine (h.extend hMerge hLoads fun other hOther => ?_).weaken (List.sublist_append_left _ _)
  rw [MergeGate.lookedUp, List.filterMap_append, List.filterMap_cons_some hLookup,
    List.filterMap_nil, List.getLast?_concat]
  exact hOther

theorem started (h : Stage steps found log) (state : AdwState) : Started state log where
  unmerged := h.unmerged
  loaded entry hEntry hLoads := by
    rw [h.unloaded entry hEntry] at hLoads
    cases hLoads

end Stage

/-- What every run comes to: no merge, or one with its steps before it and nothing telling after
it. -/
inductive Safe (testCmd : String) (log : List LogEntry) : Prop where
  | unmerged (h : merges log = [])
  | merged (before after : List LogEntry) (entry : LogEntry) (state : AdwState)
      (hLog : log = before ++ entry :: after) (hEntry : mergeOf entry = some state.prRef)
      (hLoads : loadsMerged entry = false)
      (hBefore : Stage (stepsBefore testCmd state.prNumber) (some state.prNumber) before)
      (hAfter : ∀ later ∈ after, Quiet later)

variable {testCmd : String} {log : List LogEntry}

theorem Safe.append (h : Safe testCmd log) (hQuiet : Quiet entry) :
    Safe testCmd (log ++ [entry]) := by
  cases h with
  | unmerged h => exact .unmerged (merges_append h (of_quiet hQuiet).1)
  | merged before after merge state hLog hEntry hLoads hBefore hAfter =>
    refine .merged before (after ++ [entry]) merge state ?_ hEntry hLoads hBefore ?_
    · rw [hLog, List.append_assoc, List.cons_append]
    · exact List.forall_mem_append.mpr ⟨hAfter, List.forall_mem_singleton.mpr hQuiet⟩

/-! ## One run -/

section Run

variable {steps : List Step} {found : Option (Option Number)} {α β : Type} {program : Driver α}
  {next : α → Driver β} {good : α → Prop} {post : β → List LogEntry → Prop} {ctx : Context}
  {turns : Nat}

theorem Stage.safe (h : Stage steps found log) : Safe testCmd log := .unmerged h.unmerged

theorem Started.safe (h : Started state log) : Safe testCmd log :=
  .unmerged h.unmerged

theorem ensures_quiet (h : Emits Quiet True program good) :
    Ensures (Stage steps found) program (fun value log => good value ∧ Stage steps found log)
      (Safe testCmd) :=
  (h.ensures fun _ _ => Stage.keep).mono (fun _ => id) (fun _ _ => id) fun _ => Stage.safe

theorem quiet_bind (h : Emits Quiet True program good)
    (hNext : ∀ value, good value → Ensures (Stage steps found) (next value) post (Safe testCmd)) :
    Ensures (Stage steps found) (program >>= next) post (Safe testCmd) :=
  h.bind_ensures (fun _ _ => Stage.keep) (fun _ => Stage.safe) hNext

theorem ensures_safe (h : Emits Quiet True program good) :
    Ensures (Safe testCmd) program (fun _ => Safe testCmd) (Safe testCmd) :=
  (h.ensures fun _ _ => Safe.append).mono (fun _ => id) (fun _ _ h => h.2) fun _ => id

theorem ensures_step {effect : Effect} (h : ¬ Telling effect) :
    Ensures (Stage steps found) (Adw.perform effect)
      (fun value => Stage (steps ++ (stepOf (.called effect (.ok value))).toList) found)
      (Safe testCmd) := by
  have hQuiet (answer) : Quiet (.called effect answer) := h
  exact ensures_perform (fun _ _ hStage => hStage.append (hQuiet _)) fun _ answer hStage =>
    (hStage.keep (hQuiet answer)).safe

theorem ensures_label {label : Mark} :
    Ensures (Stage steps found) (mark label)
      (fun _ => Stage (steps ++ (stepOf (.marked label)).toList) found) (Safe testCmd) := by
  have hQuiet : Quiet (.marked label) := trivial
  exact ensures_mark (fun _ hStage => hStage.append hQuiet) fun _ hStage =>
    (hStage.keep hQuiet).safe

theorem ensures_runGates {gates : List String} :
    Ensures (Stage steps found) (runGates ctx gates)
      (fun _ => Stage (steps ++ gates.map fun gate => .gate (shellSplit gate)) found)
      (Safe testCmd) := by
  induction gates generalizing steps with
  | nil =>
    refine (ensures_quiet emits_progress).mono (fun _ => id) (fun _ _ h => ?_) fun _ => id
    rw [List.map_nil, List.append_nil]
    exact h.2
  | cons gate rest ih =>
    refine (ensures_step id).bind fun rc => ?_
    split
    · rename_i hGreen
      subst hGreen
      rw [List.map_cons, List.append_cons]
      exact ih
    · exact quiet_bind emits_progress fun _ _ => ensures_throw fun _ => Stage.safe

theorem ensures_commitAndPush :
    Ensures (Stage steps found) (commitAndPush ctx state)
      (fun _ => Stage (steps ++ [.commit, .push]) found) (Safe testCmd) := by
  refine (ensures_step id).bind fun committed => quiet_bind emits_ensure fun _ hCommitted => ?_
  refine (ensures_step id).bind fun pushed => ?_
  refine (ensures_quiet emits_ensure).mono (fun _ => id) (fun _ log h => ?_) fun _ => id
  obtain ⟨hPushed, hStage⟩ := h
  simp only [stepOf, hCommitted, hPushed, if_true, Option.toList_some, List.append_assoc] at hStage
  exact hStage

theorem ensures_createPrFor :
    Ensures (Stage steps none) (createPrFor ctx gh state)
      (fun later => Stage steps (some later.prNumber)) (Safe testCmd) := by
  refine Ensures.bind (ensures_perform (fun log created h => h.lookup rfl rfl rfl)
    fun log answer h => (h.forget rfl rfl).safe) fun created => ?_
  split
  · exact ensures_throw fun _ => Stage.safe
  · exact ensures_pure (fun _ => id) fun _ => Stage.safe

/-- The number of the pull request is the one looked up last. -/
theorem ensures_openPr :
    Ensures (Stage steps none) (openPr ctx gh state)
      (fun later => Stage steps (some later.prNumber)) (Safe testCmd) := by
  have hFind : Ensures (Stage steps none) (Adw.perform (.prForBranch state.branch gh))
      (fun found => Stage steps ((truthy found).map prNumberFromUrl)) (Safe testCmd) := by
    refine ensures_perform (fun log found h => ?_) fun log answer h => (h.forget rfl rfl).safe
    cases hFound : (truthy found).map prNumberFromUrl with
    | none => exact h.forget rfl rfl
    | some number => exact h.lookup rfl rfl hFound
  refine hFind.bind fun found => ?_
  split
  · rename_i url hUrl
    rw [hUrl]
    exact ensures_pure (fun _ => id) fun _ => Stage.safe
  · rename_i hUrl
    rw [hUrl]
    exact ensures_createPrFor

theorem ensures_ciFixLoop {branch : String} {pr : Number} :
    Ensures (Stage steps found) (ciFixLoop ctx gh branch turns pr)
      (fun green => Stage (steps ++ (stepOf (.marked (.ciFixLoop pr green))).toList) found)
      (Safe testCmd) :=
  quiet_bind (emits_ciFixFrom (Or.inl trivial)) fun _ _ => ensures_label.bind fun _ =>
    ensures_pure (fun _ => id) fun _ => Stage.safe

theorem ensures_watchCi :
    Ensures (Stage steps found) (watchCi ctx gh turns state)
      (fun _ => Stage (steps ++ state.prNumber.toList.map .green) found) (Safe testCmd) := by
  unfold watchCi
  split
  · rename_i hNumber
    rw [hNumber]
    refine ensures_pure (fun _ h => ?_) fun _ => Stage.safe
    rw [Option.toList_none, List.map_nil, List.append_nil]
    exact h
  · rename_i pr hNumber
    rw [hNumber]
    refine ensures_ciFixLoop.bind fun green => ?_
    refine (ensures_quiet emits_ensure).mono (fun _ => id) (fun _ log h => ?_) fun _ => id
    obtain ⟨rfl, hStage⟩ := h
    exact hStage

theorem ensures_confirmMerge :
    Ensures (Stage steps found) (confirmMerge ctx)
      (fun _ => Stage (steps ++ [.confirmed]) found) (Safe testCmd) := by
  refine quiet_bind (emits_act id) fun isatty _ => ?_
  split
  · exact ensures_label
  · refine quiet_bind emits_ensure fun _ _ => quiet_bind (emits_act id) fun confirmed _ => ?_
    exact quiet_bind emits_ensure fun _ _ => ensures_label

theorem ensures_merge :
    Ensures (Stage (stepsBefore testCmd state.prNumber) (some state.prNumber))
      (Adw.perform (.squashMerge state.prRef gh) >>= afterMerge ctx gh state)
      (fun _ => Safe testCmd) (Safe testCmd) := by
  have hMerge : Ensures (Stage (stepsBefore testCmd state.prNumber) (some state.prNumber))
      (Adw.perform (.squashMerge state.prRef gh)) (fun _ => Safe testCmd) (Safe testCmd) :=
    ensures_perform
      (fun log _ h => .merged log [] _ state rfl rfl rfl h (List.forall_mem_nil _))
      fun log _ h => .merged log [] _ state rfl rfl rfl h (List.forall_mem_nil _)
  exact hMerge.bind fun merged => ensures_safe emits_afterMerge

theorem Started.stage (h : Started state log)
    (hDone : ¬ state.isDone "merge") : Stage [] none log where
  unmerged := h.unmerged
  unloaded entry hEntry := by
    by_contra hLoads
    exact hDone (h.loaded entry hEntry (Bool.eq_true_of_not_eq_false hLoads))
  passed := List.nil_sublist _
  lookedUp _ hNone := nomatch hNone

theorem ensures_finalizeAndMerge :
    Ensures (Started state) (finalizeAndMerge ctx turns state)
      (fun _ => Safe ctx.opts.testCmd) (Safe ctx.opts.testCmd) := by
  unfold finalizeAndMerge
  split
  · exact (ensures_safe emits_reportMerged).mono (fun _ => Started.safe) (fun _ _ => id)
      fun _ => id
  rename_i hDone
  refine Ensures.mono ?_ (fun log h => h.stage hDone) (fun _ _ => id) fun _ => id
  refine ensures_runGates.bind fun _ => ensures_commitAndPush.bind fun _ => ?_
  split
  · exact ensures_throw fun _ => Stage.safe
  refine ensures_openPr.bind fun later => quiet_bind emits_save fun _ _ => ?_
  refine quiet_bind emits_progress fun _ _ => ensures_watchCi.bind fun _ => ?_
  refine ensures_confirmMerge.bind fun _ => ?_
  exact ensures_merge

/-- A quiet part of a run that forgets no phase. -/
theorem ensures_started {stateOf : α → AdwState} (h : Emits Quiet True program
      fun value => state.completedPhases ⊆ (stateOf value).completedPhases) :
    Ensures (Started state) program (fun value => Started (stateOf value)) (Safe testCmd) :=
  (h.ensures fun _ _ => Started.append).mono (fun _ => id) (fun _ _ hEnd => hEnd.2.mono hEnd.1)
    fun _ => Started.safe

theorem started_bind (h : Emits Quiet True program good)
    (hNext : ∀ value, good value → Ensures (Started state) (next value) post (Safe testCmd)) :
    Ensures (Started state) (program >>= next) post (Safe testCmd) :=
  h.bind_ensures (fun _ _ => Started.append) (fun _ => Started.safe) hNext

theorem ensures_startState {opts : ResolvedOptions} {issue : Nat} {adwId : String}
    {valid : isAdwId adwId = true} :
    Ensures (Stage [] none) (startState opts issue adwId valid) (fun result => Started result.1)
      (Safe testCmd) :=
  (ensures_quiet emits_startState).mono (fun _ => id) (fun result _ h => h.2.started result.1)
    fun _ => id

/-- What the log knows of a merge is in the only file loaded. -/
theorem ensures_readState {adwId : String} :
    Ensures (Stage [] none) (Adw.perform (.readState adwId))
      (fun file log => merges log = [] ∧ ∀ entry ∈ log, loadsMerged entry →
        ((AdwState.load file).any fun state => state.isDone "merge"))
      (Safe testCmd) := by
  refine ensures_perform (fun log file h => ⟨merges_append h.unmerged rfl, ?_⟩)
    fun log answer h => .unmerged (merges_append h.unmerged rfl)
  refine List.forall_mem_append.mpr ⟨fun entry hEntry hLoads => ?_, ?_⟩
  · rw [h.unloaded entry hEntry] at hLoads
    cases hLoads
  · exact List.forall_mem_singleton.mpr id

theorem ensures_resolveState {opts : ResolvedOptions} {issue : Nat} :
    Ensures (Stage [] none) (resolveState opts issue) (fun result => Started result.1)
      (Safe testCmd) := by
  unfold resolveState
  split
  · refine quiet_bind emits_ensure fun _ _ => quiet_bind (emits_act id) fun id _ => ?_
    exact ensures_startState
  split
  · refine ensures_readState.bind fun file => ?_
    split
    · rename_i hLoad
      refine ensures_startState.mono (fun log h => ?_) (fun _ _ => id) fun _ => id
      rw [hLoad] at h
      have hStarted : Started (AdwState.new _ ‹_› (toString issue) opts.base) log :=
        ⟨h.1, fun entry hEntry hLoads => absurd (h.2 entry hEntry hLoads) Bool.false_ne_true⟩
      exact hStarted.stage Bool.false_ne_true
    · rename_i state hLoad
      refine (ensures_started emits_resumeState).mono (fun log h => ?_) (fun _ _ => id) fun _ => id
      rw [hLoad] at h
      exact ⟨h.1, h.2⟩
  · exact ensures_throw fun _ => Stage.safe

theorem ensures_deliver {phases : List AgentPhase} {s : PhaseState} :
    Ensures (Started s.state) (deliver ctx turns phases s) (fun _ => Safe ctx.opts.testCmd)
      (Safe ctx.opts.testCmd) :=
  (ensures_started (emits_runPhases (Or.inl trivial))).bind fun _ => ensures_finalizeAndMerge

theorem ensures_run {js : Js} {env : String → Option String} {issue : Nat} {runner : String}
    {options : RunOptions} :
    Ensures (Stage [] none) (run js env issue runner options turns)
      (fun _ => Safe (resolveOptions options).testCmd)
      (Safe (resolveOptions options).testCmd) := by
  unfold run
  extract_lets opts
  split
  · exact ensures_throw fun _ => Stage.safe
  split
  · exact ensures_pure (fun _ => Stage.safe) fun _ => Stage.safe
  refine quiet_bind (emits_act id) fun ghBin _ => quiet_bind emits_findRepo fun repo _ => ?_
  refine quiet_bind emits_preflight fun goOn _ => ?_
  split
  · exact ensures_pure (fun _ => Stage.safe) fun _ => Stage.safe
  refine ensures_resolveState.bind fun result => ?_
  have hStop : Emits Quiet True (Adw.perform .runnerStop) fun _ => True := emits_act id
  refine started_bind emits_save fun _ _ => started_bind emits_prepare fun s hSubset => ?_
  exact (ensures_deliver.withFinally hStop fun _ _ => Safe.append).mono
    (fun _ h => h.mono hSubset) (fun _ _ => id) fun _ => id

end Run

/-- One run from an empty log comes to a safe one. -/
theorem run_safe (js : Js) (env : String → Option String) (issue : Nat) (runner : String)
    (options : RunOptions) (turns : Nat) (world : World Effect Effect.Answer Mark Thrown) :
    Safe (resolveOptions options).testCmd (run js env issue runner options turns world []).2 :=
  (ensures_run world []
    ⟨rfl, List.forall_mem_nil _, List.nil_sublist _, fun _ hNone => nomatch hNone⟩).1

/-! ## The gate -/

theorem mem_merges (hLog : log = before ++ entry :: after) (hEntry : mergeOf entry = some pr) :
    pr ∈ merges log :=
  List.mem_filterMap.mpr ⟨entry, hLog ▸ List.mem_append_right _ List.mem_cons_self, hEntry⟩

theorem merge_unique {before' after' : List LogEntry} {entry' : LogEntry}
    (hBefore : merges before = []) (hAfter : ∀ later ∈ after, Quiet later)
    (hEntry : mergeOf entry' = some pr)
    (hLog : before ++ entry :: after = before' ++ entry' :: after') :
    before' = before ∧ entry' = entry := by
  have hNotBefore : entry' ∉ before := by
    intro hMem
    have hPr : pr ∈ merges before := List.mem_filterMap.mpr ⟨entry', hMem, hEntry⟩
    rw [hBefore] at hPr
    cases hPr
  have hNotAfter : entry' ∉ after := by
    intro hMem
    rw [(of_quiet (hAfter entry' hMem)).1] at hEntry
    cases hEntry
  obtain ⟨hSame, hMerge, -⟩ := (List.append_cons_inj_of_notMem hNotBefore hNotAfter).mp hLog
  exact ⟨hSame.symm, hMerge.symm⟩

theorem prRef_eq_number_iff {number : Number} :
    state.prRef = .number number ↔ state.prNumber = some number := by
  rw [AdwState.prRef]
  cases state.prNumber <;> simp

theorem merges_eq_singleton (hBefore : merges before = []) (hEntry : mergeOf entry = some pr)
    (hAfter : ∀ later ∈ after, Quiet later) : merges (before ++ entry :: after) = [pr] := by
  have hRest : after.filterMap mergeOf = [] :=
    List.filterMap_eq_nil_iff.mpr fun later hLater => (of_quiet (hAfter later hLater)).1
  rw [merges, List.filterMap_append, ← merges, hBefore, List.filterMap_cons_some hEntry, hRest]
  rfl

/-- A numbered merge is guarded. -/
theorem Safe.guarded (h : Safe testCmd log) (hNumbered : Numbered log) : Guarded testCmd log := by
  cases h with
  | unmerged h =>
    refine ⟨by rw [h]; exact Nat.zero_le 1, fun before entry after pr hLog hEntry => ?_,
      fun _ _ _ => h⟩
    have hMem := mem_merges hLog hEntry
    rw [h] at hMem
    cases hMem
  | merged before after entry state hLog hEntry hLoads hBefore hAfter =>
    refine ⟨?_, fun before' entry' after' pr hLog' hEntry' => ?_, fun loading hMem hLoading => ?_⟩
    · rw [hLog, merges_eq_singleton hBefore.unmerged hEntry hAfter]
      exact Nat.le_refl 1
    · obtain ⟨number, hNumber⟩ := hNumbered before' entry' after' pr hLog' hEntry'
      obtain ⟨rfl, rfl⟩ := merge_unique hBefore.unmerged hAfter hEntry' (hLog ▸ hLog')
      rw [hBefore.lookedUp _ rfl, Option.some_inj] at hNumber
      obtain rfl : state.prRef = pr := Option.some_inj.mp (hEntry.symm.trans hEntry')
      exact ⟨number, prRef_eq_number_iff.mpr hNumber, hNumber ▸ hBefore.passed⟩
    · exfalso
      rw [hLog] at hMem
      rcases List.mem_append.mp hMem with hOld | hNew
      · rw [hBefore.unloaded loading hOld] at hLoading
        cases hLoading
      rcases List.mem_cons.mp hNew with rfl | hLater
      · rw [hLoads] at hLoading
        cases hLoading
      · rw [(of_quiet (hAfter loading hLater)).2.2] at hLoading
        cases hLoading

theorem Guarded.refs (h : Guarded testCmd log) (hPr : pr ∈ merges log) :
    ∃ number, pr = .number number := by
  obtain ⟨entry, hMem, hEntry⟩ := List.mem_filterMap.mp hPr
  obtain ⟨before, after, hLog⟩ := List.append_of_mem hMem
  obtain ⟨number, hNumber, -⟩ := h.gated before entry after pr hLog hEntry
  exact ⟨number, hNumber⟩

theorem Safe.numbered (h : Safe testCmd log)
    (hRefs : ∀ pr ∈ merges log, ∃ number, pr = .number number) : Numbered log := by
  intro before' entry' after' pr hLog' hEntry'
  have hMem := mem_merges hLog' hEntry'
  cases h with
  | unmerged h =>
    rw [h] at hMem
    cases hMem
  | merged before after entry state hLog hEntry hLoads hBefore hAfter =>
    obtain ⟨number, rfl⟩ := hRefs pr hMem
    obtain ⟨rfl, rfl⟩ := merge_unique hBefore.unmerged hAfter hEntry' (hLog ▸ hLog')
    have hRef : state.prRef = .number number := Option.some_inj.mp (hEntry.symm.trans hEntry')
    exact ⟨number, (hBefore.lookedUp _ rfl).trans (congrArg some (prRef_eq_number_iff.mp hRef))⟩

/-- The merge gate holds in exactly the runs in which every pull request to be merged has a
number. -/
theorem merge_gate_iff (js : Js) (env : String → Option String) (issue : Nat) (runner : String)
    (options : RunOptions) (turns : Nat) (world : World Effect Effect.Answer Mark Thrown) :
    Guarded (resolveOptions options).testCmd
        (run js env issue runner options turns world []).2 ↔
      Numbered (run js env issue runner options turns world []).2 :=
  have hSafe := run_safe js env issue runner options turns world
  ⟨fun hGuarded => hSafe.numbered fun _ => hGuarded.refs, hSafe.guarded⟩

/-! ## A run on a quiet day -/

def plainJs : Js := ⟨id, fun _ => ""⟩

def calmOptions : RunOptions where
  base := none
  phases := some "plan"
  adwId := none
  resume := none
  noProgress := some true
  maxResolve := none
  maxPatch := none
  maxCiFix := none
  ciPollIntervalMs := none
  ciMaxPolls := none
  testCmd := none
  repo := some "o/r"
  verify := some false
  force := some true
  allowDirty := none
  yes := some true
  dryRun := none

/-- Everything succeeds, and `gh pr create` prints a text. -/
def calmWorld (printed : String) : World Effect Effect.Answer Mark Thrown
  | _, .resolveGhBin => .ok (some "gh")
  | _, .detectRepo _ => .ok "o/r"
  | _, .issueState _ _ => .ok "CLOSED"
  | _, .readState _ => .ok none
  | _, .makeAdwId => .ok ⟨"0123abcd", by decide⟩
  | _, .save _ => .ok ()
  | _, .workingTreeDirty => .ok false
  | _, .postProgress .. => .ok ()
  | _, .fetchIssue .. => .ok none
  | _, .createOrCheckoutBranch _ _ => .ok ⟨true, none⟩
  | _, .capture _ => .ok ()
  | _, .setStatus .. => .ok ()
  | _, .changedFiles _ => .ok []
  | _, .runnerStart => .ok ()
  | _, .runnerStop => .ok ()
  | _, .runCmd _ => .ok 0
  | _, .sleep _ => .ok ()
  | _, .runAgentPhase _ => .ok ⟨"", none, [], [], .ofNat 0, .ofNat 0⟩
  | _, .writeArtifact _ _ => .ok ()
  | _, .classify => .ok "feature"
  | _, .readCommitMessage => .ok none
  | _, .readPrBody => .ok none
  | _, .commitAll _ => .ok ⟨true, none⟩
  | _, .push _ => .ok ⟨true, none⟩
  | _, .pullRebase _ => .ok ⟨true, none⟩
  | _, .prForBranch _ _ => .ok none
  | _, .createPr .. => .ok (createPrResult 0 printed "")
  | _, .ciStatus _ _ => .ok ⟨.success, []⟩
  | _, .isatty => .ok false
  | _, .confirm => .ok false
  | _, .squashMerge _ _ => .ok ⟨true, none⟩

def calmLog (printed : String) : List LogEntry :=
  (run plainJs (fun _ => none) 7 "opencode" calmOptions 9 (calmWorld printed) []).2

/-- The default limits need 167 turns at most. -/
theorem calm_run_ends :
    (run plainJs (fun _ => none) 7 "opencode" calmOptions 167 (calmWorld "") []).1 ≠ .running :=
  DriverRuns.run_ends _ _ _ _ calmOptions (DriverRuns.enough_default rfl rfl rfl rfl) _ _

theorem numbered_pr_guarded :
    merges (calmLog "https://github.com/o/r/pull/42\n") = [.number (.posInt 42)] ∧
      Guarded "" (calmLog "https://github.com/o/r/pull/42\n") := by
  have hMerges : merges (calmLog "https://github.com/o/r/pull/42\n") =
      [.number (.posInt 42)] := by decide +kernel
  refine ⟨hMerges, (merge_gate_iff _ _ _ _ calmOptions _ _).mpr ?_⟩
  refine (run_safe _ _ _ _ calmOptions _ _).numbered fun pr hPr => ⟨.posInt 42, ?_⟩
  exact List.mem_singleton.mp (hMerges ▸ hPr)

/-- `gh pr create` succeeds and prints nothing: the pull request has no number and is merged with
its checks unseen. -/
theorem silent_pr_unwatched :
    merges (calmLog "") = [.text ""] ∧ passed (calmLog "") = stepsBefore "" none ∧
      ¬ Guarded "" (calmLog "") := by
  have hMerges : merges (calmLog "") = [.text ""] := by decide +kernel
  refine ⟨hMerges, by decide +kernel, fun hGuarded => ?_⟩
  have hMem : PrRef.text "" ∈ merges (calmLog "") := by
    rw [hMerges]
    exact List.mem_singleton_self _
  obtain ⟨number, hNumber⟩ := hGuarded.refs hMem
  cases hNumber

end MxAgent.System.MergeGate
