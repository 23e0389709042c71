import MxAgent.System.MergeGate

/-! The watch over the checks of a pull request is bounded and never reports green on red. Every
call of `ciStatus` that does not end the watch uses up one of three budgets; only the budget of
polls is ever refilled, and only by a fix, of which there are few. -/
namespace MxAgent.System.CiFixBounds

open Protocol Adw EffectLog EffectLog.Program System.DriverRuns

def ciAnswer : LogEntry → Option CiStatus
  | .called (.ciStatus ..) (.ok status) => some status
  | _ => none

def ciAnswers (log : List LogEntry) : List CiStatus := log.filterMap ciAnswer

def isCiCall : LogEntry → Bool
  | .called (.ciStatus ..) _ => true
  | _ => false

def isAgentCall : LogEntry → Bool
  | .called (.runAgentPhase _) _ => true
  | _ => false

def ciCalls (log : List LogEntry) : Nat := log.countP isCiCall

def agentCalls (log : List LogEntry) : Nat := log.countP isAgentCall

def noneAnswers (answers : List CiStatus) : Nat :=
  answers.countP fun status => status.state == .none

/-- The last two entries report a fix, and that it left changes. -/
def FixReported (log : List LogEntry) : Prop :=
  ∃ earlier data, data.resolved ≠ .ofNat 0 ∧
    log = earlier ++ [.called (.runAgentPhase .resolve) (.ok data),
      .called .workingTreeDirty (.ok true)]

def FixCommitted (log : List LogEntry) : Prop :=
  ∃ earlier message committed, committed.ok ∧ FixReported earlier ∧
    log = earlier ++ [.called (.commitAll message) (.ok committed)]

/-- A commit directly follows a reported fix, a push such a commit. -/
def JustifiedAt (before : List LogEntry) : LogEntry → Prop
  | .called (.commitAll _) _ => FixReported before
  | .called (.push _) _ => FixCommitted before
  | _ => True

/-- Every entry of the log stands where it may. -/
def Justified (log : List LogEntry) : Prop :=
  ∀ before entry after, log = before ++ entry :: after → JustifiedAt before entry

/-- The last answer was a success, or the fourth without checks. -/
def Green (log : List LogEntry) : Prop :=
  ∃ earlier last, ciAnswers log = earlier ++ [last] ∧
    (last.state = .success ∨ last.state = .none ∧ 3 ≤ noneAnswers earlier)

/-- The most calls of `ciStatus` that the budgets allow. -/
def callBound (attempts polls : Nat) : Nat := polls * (attempts + 1) + attempts + 4

/-- The bounds that the watch over the checks keeps. -/
structure Bounded (attempts polls : Nat) (log : List LogEntry) : Prop where
  calls : ciCalls log ≤ callBound attempts polls
  agents : agentCalls log ≤ attempts
  justified : Justified log

section Entries

variable {log : List LogEntry} {entry : LogEntry}

theorem justified_nil : Justified [] := by
  intro before entry after hLog
  simp at hLog

theorem Justified.snoc (h : Justified log) (hEntry : JustifiedAt log entry) :
    Justified (log ++ [entry]) := by
  intro before found after hLog
  rcases List.eq_nil_or_concat after with rfl | ⟨rest, last, rfl⟩
  · obtain ⟨rfl, hLast⟩ := List.append_inj' hLog rfl
    cases hLast
    exact hEntry
  · rw [List.concat_eq_append, ← List.cons_append, ← List.append_assoc] at hLog
    exact h before found rest (List.append_inj' hLog rfl).1

/-- Entries that neither call nor change anything. -/
def Neutral : LogEntry → Prop
  | .called (.postProgress ..) _ | .called (.sleep _) _ | .marked _ => True
  | _ => False

theorem Neutral.uncounted (h : Neutral entry) :
    JustifiedAt log entry ∧ isCiCall entry = false ∧ isAgentCall entry = false ∧
      ciAnswer entry = none := by
  rcases entry with ⟨effect, answer⟩ | label
  · cases effect <;> first | exact h.elim | exact ⟨trivial, rfl, rfl, rfl⟩
  · exact ⟨trivial, rfl, rfl, rfl⟩

end Entries

/-- The account of a log: its calls and the answers without checks. -/
structure Account (calls agents nones : Nat) (log : List LogEntry) : Prop where
  calls_eq : ciCalls log = calls
  agents_eq : agentCalls log = agents
  nones_eq : noneAnswers (ciAnswers log) = nones
  justified : Justified log

variable {entry : LogEntry}

namespace Account

variable {calls agents nones : Nat} {log : List LogEntry}

theorem empty : Account 0 0 0 [] := ⟨rfl, rfl, rfl, justified_nil⟩

theorem ciAnswers_snoc (entry : LogEntry) :
    ciAnswers (log ++ [entry]) = ciAnswers log ++ (ciAnswer entry).toList := by
  rcases hAnswer : ciAnswer entry with _ | status <;> simp [ciAnswers, hAnswer]

theorem snoc (h : Account calls agents nones log) (hEntry : JustifiedAt log entry) :
    Account (calls + (isCiCall entry).toNat) (agents + (isAgentCall entry).toNat)
      (nones + noneAnswers (ciAnswer entry).toList) (log ++ [entry]) := by
  refine ⟨?_, ?_, ?_, h.justified.snoc hEntry⟩
  · rw [← h.calls_eq]
    rcases hCall : isCiCall entry <;> simp [ciCalls, hCall]
  · rw [← h.agents_eq]
    rcases hCall : isAgentCall entry <;> simp [agentCalls, hCall]
  · rw [← h.nones_eq, ciAnswers_snoc, noneAnswers, List.countP_append, noneAnswers, noneAnswers]

theorem uncounted (h : Account calls agents nones log) (hEntry : JustifiedAt log entry)
    (hCall : isCiCall entry = false) (hAgent : isAgentCall entry = false)
    (hAnswer : ciAnswer entry = none) :
    Account calls agents nones (log ++ [entry]) := by
  have hNext := h.snoc hEntry
  rwa [hCall, hAgent, hAnswer] at hNext

theorem neutral (h : Account calls agents nones log) (hEntry : Neutral entry) :
    Account calls agents nones (log ++ [entry]) := by
  obtain ⟨hJustified, hCall, hAgent, hAnswer⟩ := @Neutral.uncounted log entry hEntry
  exact h.uncounted hJustified hCall hAgent hAnswer

theorem agentCall (h : Account calls agents nones log) {phase : AgentPhase}
    (answer : Except Thrown PhaseData) :
    Account calls (agents + 1) nones (log ++ [.called (.runAgentPhase phase) answer]) := by
  have hJustified : JustifiedAt log (.called (.runAgentPhase phase) answer) := trivial
  exact h.snoc hJustified

theorem bounded {attempts polls : Nat} (h : Account calls agents nones log)
    (hCalls : calls ≤ callBound attempts polls) (hAgents : agents ≤ attempts) :
    Bounded attempts polls log :=
  ⟨h.calls_eq.trans_le hCalls, h.agents_eq.trans_le hAgents, h.justified⟩

end Account

variable {log : List LogEntry}

theorem Bounded.neutral {attempts polls : Nat} (h : Bounded attempts polls log)
    (hEntry : Neutral entry) :
    Bounded attempts polls (log ++ [entry]) := by
  have hAccount : Account (ciCalls log) (agentCalls log) (noneAnswers (ciAnswers log)) log :=
    ⟨rfl, rfl, rfl, h.justified⟩
  exact (hAccount.neutral hEntry).bounded h.calls h.agents

theorem Green.neutral (h : Green log) (hEntry : Neutral entry) : Green (log ++ [entry]) := by
  obtain ⟨-, -, -, hAnswer⟩ := @Neutral.uncounted log entry hEntry
  unfold Green
  rw [Account.ciAnswers_snoc, hAnswer, Option.toList_none, List.append_nil]
  exact h

/-- The budgets that the counters leave, with so many calls made. -/
structure Room (attempts polls calls : Nat) (counters : CiCounters) : Prop where
  calls_lt : calls < callBound attempts polls
  left : CiRoom attempts polls (callBound attempts polls - calls) counters

theorem Room.start (attempts polls : Nat) : Room attempts polls 0 ⟨0, 0, 0⟩ := by
  refine ⟨by unfold callBound; omega, Nat.zero_le _, Nat.zero_le _, Nat.zero_le _, ?_⟩
  simp only [callBound, noChecksSettlePolls, Nat.sub_zero]
  rw [Nat.mul_add, Nat.mul_add, Nat.mul_comm polls]
  omega

theorem Room.next {attempts polls calls : Nat} {counters later : CiCounters}
    (h : Room attempts polls calls counters)
    (hNext : ∀ turns, CiRoom attempts polls (turns + 1) counters →
      CiRoom attempts polls turns later) : Room attempts polls (calls + 1) later := by
  obtain ⟨left, hLeft⟩ : ∃ left, callBound attempts polls - calls = left + 1 :=
    ⟨callBound attempts polls - calls - 1, by have := h.calls_lt; omega⟩
  have hLater := hNext left (hLeft ▸ h.left)
  obtain rfl : left = callBound attempts polls - (calls + 1) := by omega
  have hSome := hLater.turns_lt
  exact ⟨by omega, hLater⟩

/-! ## The loop -/

variable {before : List LogEntry → Prop} {phase : String} {agents nones : Nat}

section Loop

variable {start : List LogEntry} {attempts polls : Nat} {ctx : Context} {gh : Gh}
  {branch : String} {pr : Number}

/-- One effect, between properties of the entries since the start. -/
theorem ensures_act {effect : Effect} {after : effect.Answer → List LogEntry → Prop}
    (hAfter : ∀ added value, before added →
      after value (added ++ [.called effect (.ok value)]))
    (hBounded : ∀ added answer, before added →
      Bounded attempts polls (added ++ [.called effect answer])) :
    Ensures (Since start before) (Adw.perform effect) (fun value => Since start (after value))
      (Since start (Bounded attempts polls)) :=
  ensures_perform (fun _ value hLog => hLog.snoc fun added => hAfter added value)
    fun _ answer hLog => hLog.snoc fun added => hBounded added answer

theorem emits_progress_neutral : Emits Neutral False (progress ctx phase) fun _ => True := by
  unfold progress
  split
  · exact emits_pure trivial
  · exact emits_perform fun _ => trivial

theorem emits_pollSleep_neutral : Emits Neutral False (pollSleep ctx) fun _ => True := by
  unfold pollSleep
  split
  · exact emits_perform fun _ => trivial
  · exact emits_pure trivial

/-- A part that only waits or reports, before another one. -/
theorem neutral_bind {α β : Type} {program : Driver α} {next : α → Driver β}
    {post : β → List LogEntry → Prop} (h : Emits Neutral False program fun _ => True)
    (hKeeps : ∀ added entry, before added → Neutral entry → before (added ++ [entry]))
    (hBounded : ∀ added, before added → Bounded attempts polls added)
    (hNext : ∀ value, Ensures (Since start before) (next value) post
      (Since start (Bounded attempts polls))) :
    Ensures (Since start before) (program >>= next) post
      (Since start (Bounded attempts polls)) :=
  h.bind_ensures (fun _ entry hLog hEntry => hLog.snoc fun added hAdded =>
    hKeeps added entry hAdded hEntry) (fun _ hLog => hLog.mono hBounded) fun value _ => hNext value

/-- What the loop knows after an answer of `ciStatus`. -/
structure Answered (calls agents nones : Nat) (status : CiStatus) (log : List LogEntry) : Prop
    extends Account calls agents nones log where
  last : (ciAnswers log).getLast? = some status

theorem Answered.neutral {calls : Nat} {status : CiStatus}
    (h : Answered calls agents nones status log) (hEntry : Neutral entry) :
    Answered calls agents nones status (log ++ [entry]) := by
  refine ⟨h.toAccount.neutral hEntry, ?_⟩
  obtain ⟨-, -, -, hAnswer⟩ := @Neutral.uncounted log entry hEntry
  rw [Account.ciAnswers_snoc, hAnswer, Option.toList_none, List.append_nil, h.last]

theorem Answered.green {calls : Nat} {status : CiStatus}
    (h : Answered calls agents nones status log)
    (hGreen : status.state = .success ∨ status.state = .none ∧ noChecksSettlePolls < nones) :
    Green log := by
  obtain ⟨earlier, hAnswers⟩ := List.getLast?_eq_some_iff.mp h.last
  refine ⟨earlier, status, hAnswers, hGreen.imp_right fun hNone => ⟨hNone.1, ?_⟩⟩
  have hNones := h.nones_eq
  have hEnough := hNone.2
  rw [hAnswers, noneAnswers, List.countP_append, ← noneAnswers] at hNones
  simp only [List.countP_singleton, hNone.1, BEq.rfl, if_true] at hNones
  unfold noChecksSettlePolls at hEnough
  omega

theorem account_ciStatus {calls : Nat} (status : CiStatus) (h : Account calls agents nones log) :
    Answered (calls + 1) agents (nones + if status.state = .none then 1 else 0) status
      (log ++ [.called (.ciStatus pr gh) (.ok status)]) := by
  have hJustified : JustifiedAt log (.called (.ciStatus pr gh) (.ok status)) := trivial
  refine ⟨?_, ?_⟩
  · have hNext := h.snoc hJustified
    simpa [isCiCall, isAgentCall, ciAnswer, noneAnswers, List.countP_singleton] using hNext
  · rw [Account.ciAnswers_snoc]
    simp [ciAnswer]

theorem ensures_report {green : Bool}
    (hKeeps : ∀ added entry, before added → Neutral entry → before (added ++ [entry]))
    (hBounded : ∀ added, before added → Bounded attempts polls added)
    (hGreen : ∀ added, before added → green → Green added) :
    Ensures (Since start before) (do progress ctx phase; pure green)
      (fun green => Since start fun added => green → Green added)
      (Since start (Bounded attempts polls)) :=
  neutral_bind emits_progress_neutral hKeeps hBounded fun _ =>
    ensures_pure (fun _ hLog => hLog.mono hGreen) fun _ hLog => hLog.mono hBounded

section Fix

variable {calls : Nat} (hBound : calls ≤ callBound attempts polls) (hAgents : agents ≤ attempts)

include hBound hAgents

/-- An effect that no bound counts, where it may stand. -/
theorem ensures_uncounted {found : List LogEntry → Prop} (effect : Effect)
    (after : effect.Answer → List LogEntry → Prop)
    (hCounts : ∀ answer, isCiCall (.called effect answer) = false ∧
      isAgentCall (.called effect answer) = false ∧ ciAnswer (.called effect answer) = none)
    (hJustified : ∀ added answer, found added → JustifiedAt added (.called effect answer))
    (hAfter : ∀ added value, found added → after value (added ++ [.called effect (.ok value)])) :
    Ensures (Since start fun added => Account calls agents nones added ∧ found added)
      (Adw.perform effect)
      (fun value => Since start fun added => Account calls agents nones added ∧ after value added)
      (Since start (Bounded attempts polls)) := by
  have hEntry : ∀ added answer, Account calls agents nones added ∧ found added →
      Account calls agents nones (added ++ [.called effect answer]) := by
    intro added answer hAdded
    obtain ⟨hCall, hAgent, hAnswer⟩ := hCounts answer
    exact hAdded.1.uncounted (hJustified added answer hAdded.2) hCall hAgent hAnswer
  exact ensures_act (fun added value hAdded => ⟨hEntry added _ hAdded, hAfter added value hAdded.2⟩)
    fun added answer hAdded => (hEntry added answer hAdded).bounded hBound hAgents

theorem ensures_gaveUp :
    Ensures (Since start (Account calls agents nones)) (do progress ctx phase; pure false)
      (fun green => Since start fun added => green → Green added)
      (Since start (Bounded attempts polls)) :=
  ensures_report (fun _ _ hAdded => hAdded.neutral)
    (fun _ hAdded => hAdded.bounded hBound hAgents) fun _ _ => nofun

theorem ensures_push :
    Ensures (Since start fun added => Account calls agents nones added ∧ FixCommitted added)
      (Adw.perform (.push branch)) (fun _ => Since start (Account calls agents nones))
      (Since start (Bounded attempts polls)) :=
  (ensures_uncounted hBound hAgents (.push branch) (fun _ _ => True) (fun _ => ⟨rfl, rfl, rfl⟩)
    (fun _ _ => id) fun _ _ _ => trivial).mono (fun _ => id)
      (fun _ _ hLog => hLog.mono fun _ => And.left) fun _ => id

end Fix

/-- One attempt at a fix, with what the loop does after it. Its entries are in the order that a
commit and a push need. -/
theorem ensures_fix {calls : Nat} {message : String} {next : GitResult → Driver Bool}
    {stop : Driver Bool} {post : Bool → List LogEntry → Prop}
    (hBound : calls ≤ callBound attempts polls) (hAgents : agents + 1 ≤ attempts)
    (hStop : Ensures (Since start (Account calls (agents + 1) nones)) stop post
      (Since start (Bounded attempts polls)))
    (hNext : ∀ committed, Ensures (Since start fun added =>
        Account calls (agents + 1) nones added ∧ (committed.ok → FixCommitted added))
      (next committed) post (Since start (Bounded attempts polls))) :
    Ensures (Since start (Account calls agents nones)) (do
        let outcome ← Adw.perform (.runAgentPhase .resolve)
        if outcome.resolved = .ofNat 0 then stop
        else
          let dirty ← Adw.perform .workingTreeDirty
          if !dirty then stop
          else
            let committed ← Adw.perform (.commitAll message)
            next committed) post (Since start (Bounded attempts polls)) := by
  have hAgent : Ensures (Since start (Account calls agents nones))
      (Adw.perform (.runAgentPhase .resolve))
      (fun data => Since start fun added => Account calls (agents + 1) nones added ∧
        ∃ earlier, added = earlier ++ [.called (.runAgentPhase .resolve) (.ok data)])
      (Since start (Bounded attempts polls)) :=
    ensures_act (fun added data hAdded => ⟨hAdded.agentCall _, added, rfl⟩)
      fun added answer hAdded => (hAdded.agentCall _).bounded hBound hAgents
  refine hAgent.bind fun data => ?_
  split
  · exact hStop.since fun _ => And.left
  rename_i hData
  refine (ensures_uncounted hBound hAgents .workingTreeDirty
    (fun dirty added => dirty → FixReported added) (fun _ => ⟨rfl, rfl, rfl⟩)
    (fun _ _ _ => trivial) ?_).bind fun dirty => ?_
  · rintro _ _ ⟨earlier, rfl⟩ rfl
    exact ⟨earlier, data, hData, by simp⟩
  cases dirty with
  | false => exact hStop.since fun _ => And.left
  | true =>
    refine (ensures_uncounted hBound hAgents (.commitAll message) _ (fun _ => ⟨rfl, rfl, rfl⟩)
      (fun _ _ hFix => hFix rfl) ?_).bind hNext
    exact fun added committed hFix hOk => ⟨added, message, committed, hOk, hFix rfl, rfl⟩

/-- Every turn of the loop starts with the account that its counters keep. -/
theorem ensures_ciFixFrom (hFixes : ctx.opts.maxCiFix.le (.ofNat attempts))
    (hPolls : ctx.opts.ciMaxPolls.le (.ofNat polls)) {turns calls : Nat}
    {counters : CiCounters} (hRoom : Room attempts polls calls counters) :
    Ensures (Since start (Account calls counters.attempt counters.nonePolls))
      (ciFixFrom ctx gh branch pr turns counters)
      (fun green => Since start fun added => green → Green added)
      (Since start (Bounded attempts polls)) := by
  induction turns generalizing counters calls with
  | zero =>
    exact fun world log hLog => ⟨hLog.mono fun added hAdded =>
      hAdded.bounded hRoom.calls_lt.le hRoom.left.attempt_le, fun _ hReturned => nomatch hReturned⟩
  | succ turns ih =>
    have hBound : calls + 1 ≤ callBound attempts polls := hRoom.calls_lt
    have hTried := hRoom.left.attempt_le
    have hAsk : Ensures (Since start (Account calls counters.attempt counters.nonePolls))
        (Adw.perform (.ciStatus pr gh))
        (fun status => Since start (Answered (calls + 1) counters.attempt
          (counters.nonePolls + if status.state = .none then 1 else 0) status))
        (Since start (Bounded attempts polls)) := by
      refine ensures_act (fun added status => account_ciStatus status)
        fun added answer hAdded => ?_
      have hJustified : JustifiedAt added (.called (.ciStatus pr gh) answer) := trivial
      exact (hAdded.snoc hJustified).bounded hBound hTried
    refine hAsk.bind fun status => ?_
    -- what a result is reported from, and what a poll goes on from
    have hStop : ∀ {nones : Nat} {green : Bool},
        (green → status.state = .success ∨
          status.state = .none ∧ noChecksSettlePolls < nones) →
        Ensures (Since start (Answered (calls + 1) counters.attempt nones status))
          (do progress ctx "ci-fix"; pure green)
          (fun green => Since start fun added => green → Green added)
          (Since start (Bounded attempts polls)) := fun hGreen =>
      ensures_report (fun added entry hAdded => hAdded.neutral)
        (fun added hAdded => hAdded.toAccount.bounded hBound hTried)
        fun added hAdded hTrue => hAdded.green (hGreen hTrue)
    have hPoll : ∀ {nones : Nat} {later : CiCounters}, later.attempt = counters.attempt →
        later.nonePolls = nones → Room attempts polls (calls + 1) later →
        Ensures (Since start (Answered (calls + 1) counters.attempt nones status))
          (do pollSleep ctx; ciFixFrom ctx gh branch pr turns later)
          (fun green => Since start fun added => green → Green added)
          (Since start (Bounded attempts polls)) := by
      rintro nones later hAttempt rfl hLater
      refine neutral_bind emits_pollSleep_neutral (fun added entry hAdded => hAdded.neutral)
        (fun added hAdded => hAdded.toAccount.bounded hBound hTried) fun _ => ?_
      refine (ih hLater).since fun added hAdded => ?_
      rw [hAttempt]
      exact hAdded.toAccount
    rcases hState : status.state with _ | _ | _ | _ | _ <;>
      simp only [reduceCtorEq, if_true, if_false, Nat.add_zero]
    · exact hStop fun _ => .inl hState
    · split
      · exact hStop nofun
      · rename_i hOn
        have hLess := hRoom.left.attempt_lt hFixes hOn
        refine neutral_bind emits_progress_neutral (fun added entry hAdded => hAdded.neutral)
          (fun added hAdded => hAdded.toAccount.bounded hBound hTried) fun _ => ?_
        refine Ensures.since (ensures_fix hBound hLess (ensures_gaveUp hBound hLess)
          fun committed => ?_) fun _ hAdded => hAdded.toAccount
        split
        · rename_i hOk
          refine ((ensures_push hBound hLess).since fun _ hAdded =>
            ⟨hAdded.1, hAdded.2 hOk⟩).bind fun _ => ?_
          exact @ih _ { counters with attempt := counters.attempt + 1, polls := 0 }
            (hRoom.next fun _ hLeft => hLeft.next_fix hLess rfl (Nat.zero_le _) rfl)
        · refine (@ih _ { counters with attempt := counters.attempt + 1 } ?_).since
            fun _ => And.left
          exact hRoom.next fun _ hLeft => hLeft.next_fix hLess rfl le_rfl rfl
    · split
      · exact hStop nofun
      · rename_i hOn
        exact hPoll rfl rfl (hRoom.next fun _ hLeft => hLeft.next_pending hPolls hOn)
    · split
      · rename_i hSettled
        exact hStop fun _ => .inr ⟨hState, hSettled⟩
      · rename_i hOn
        exact hPoll rfl rfl (hRoom.next fun _ hLeft => hLeft.next_none hOn)
    · exact hStop nofun

/-- The mark at the end changes none of the properties. -/
theorem ensures_ciFixLoop (hFixes : ctx.opts.maxCiFix.le (.ofNat attempts))
    (hPolls : ctx.opts.ciMaxPolls.le (.ofNat polls)) {turns : Nat} :
    Ensures (Since start (Account 0 0 0)) (ciFixLoop ctx gh branch turns pr)
      (fun green => Since start fun added => green → Green added)
      (Since start (Bounded attempts polls)) := by
  have hLoop := @ensures_ciFixFrom start attempts polls ctx gh branch pr hFixes hPolls turns 0
    ⟨0, 0, 0⟩ (Room.start attempts polls)
  have hMark : ∀ green : Bool, Ensures (fun log =>
        Since start (fun added => green → Green added) log ∧
          Since start (Bounded attempts polls) log)
      (mark (.ciFixLoop pr green) : Driver Unit)
      (fun _ log => Since start (fun added => green → Green added) log ∧
        Since start (Bounded attempts polls) log) (Since start (Bounded attempts polls)) :=
    fun green => Ensures.and_always (ensures_mark
      (fun _ hLog => hLog.1.snoc fun _ hAdded hTrue => (hAdded hTrue).neutral trivial)
      fun _ hLog => hLog.2.snoc fun _ hAdded => hAdded.neutral trivial)
  exact hLoop.and_always.bind fun green => (hMark green).bind fun _ =>
    ensures_pure (fun _ => And.left) fun _ => And.right

/-! ## Errors -/

theorem calm_progress : Calm (progress ctx phase) := by
  unfold progress
  split
  · exact calm_pure
  · exact calm_perform

theorem calm_pollSleep : Calm (pollSleep ctx) := by
  unfold pollSleep
  split
  · exact calm_perform
  · exact calm_pure

theorem calm_report {green : Bool} : Calm (do progress ctx phase; pure green) :=
  calm_progress.bind fun _ => calm_pure

/-- The loop has no errors of its own. -/
theorem calm_ciFixFrom {turns : Nat} {counters : CiCounters} :
    Calm (ciFixFrom ctx gh branch pr turns counters) := by
  induction turns generalizing counters with
  | zero => exact calm_outOfTurns
  | succ turns ih =>
    refine calm_perform.bind fun status => ?_
    split
    · exact calm_report
    · split
      · exact calm_report
      · exact calm_pollSleep.bind fun _ => ih
    · exact calm_report
    · split
      · exact calm_report
      · exact calm_pollSleep.bind fun _ => ih
    · split
      · exact calm_report
      refine calm_progress.bind fun _ => calm_perform.bind fun outcome => ?_
      split
      · exact calm_report
      refine calm_perform.bind fun dirty => ?_
      split
      · exact calm_report
      refine calm_perform.bind fun committed => ?_
      split
      · exact calm_perform.bind fun _ => ih
      · exact ih

theorem calm_ciFixLoop {turns : Nat} : Calm (ciFixLoop ctx gh branch turns pr) :=
  calm_ciFixFrom.bind fun _ => calm_mark.bind fun _ => calm_pure

end Loop

/-- Whatever the world answers, `ciFixLoop` ends: it calls `ciStatus` at most `callBound` times and
an agent at most as often as it may try to fix, and commits and pushes only directly after an agent
has reported a fix and left changes. It returns true only on a success, or on the fourth or a later
answer that there are no checks. Without errors from the world it returns. -/
theorem ciFixLoop_bounded {ctx : Context} {gh : Gh} {branch : String} {pr : Number}
    {attempts polls turns : Nat} (hFixes : ctx.opts.maxCiFix.le (.ofNat attempts))
    (hPolls : ctx.opts.ciMaxPolls.le (.ofNat polls))
    (hTurns : polls * (attempts + 1) + attempts + 4 ≤ turns)
    (world : World Effect Effect.Answer Mark Thrown) (log : List LogEntry) :
    ∃ added outcome, ciFixLoop ctx gh branch turns pr world log = (outcome, log ++ added) ∧
      outcome ≠ .running ∧ ciCalls added ≤ polls * (attempts + 1) + attempts + 4 ∧
      agentCalls added ≤ attempts ∧ Justified added ∧
      (outcome = .returned true → Green added) ∧
      ((∀ log effect, ∃ answer, world log effect = .ok answer) →
        ∃ green, outcome = .returned green) := by
  have hSuffices : CiSuffices ctx.opts turns ⟨0, 0, 0⟩ := by
    have hRoom := (Room.start attempts polls).left.turns_lt
    refine ⟨attempts, polls, hFixes, hPolls, Nat.zero_le _, Nat.zero_le _, Nat.zero_le _, ?_⟩
    unfold callBound at hRoom
    omega
  have hEnds := ((@emits_ciFixLoop False ctx turns gh branch pr (.inr hSuffices)) world log).2
  obtain ⟨hAlways, hReturned⟩ := @ensures_ciFixLoop log attempts polls ctx gh branch pr hFixes
    hPolls turns world log ⟨[], (List.append_nil log).symm, Account.empty⟩
  have hCalm := @calm_ciFixLoop ctx gh branch pr turns world log
  rcases hRun : ciFixLoop ctx gh branch turns pr world log with ⟨outcome, later⟩
  rw [hRun] at hEnds hAlways hReturned hCalm
  obtain ⟨added, rfl, hBounded⟩ := hAlways
  refine ⟨added, outcome, rfl, ?_, hBounded.calls, hBounded.agents, hBounded.justified, ?_, ?_⟩
  · rintro rfl
    exact hEnds
  · intro hGreen
    obtain ⟨same, hSame, hAdded⟩ := hReturned true hGreen
    rw [List.append_cancel_left hSame]
    exact hAdded rfl
  · intro hWorld
    cases outcome with
    | returned green => exact ⟨green, rfl⟩
    | threw error => exact absurd rfl (hCalm hWorld error)
    | running => exact hEnds.elim

/-- The checks are red until an agent is called and fixes them. -/
def fixingWorld : World Effect Effect.Answer Mark Thrown
  | log, .ciStatus _ _ =>
    .ok (if log.any isAgentCall then ⟨.success, []⟩ else ⟨.failure, ["build"]⟩)
  | _, .runAgentPhase _ => .ok ⟨"", none, [], [], .ofNat 1, .ofNat 0⟩
  | _, .workingTreeDirty => .ok true
  | log, effect => MergeGate.calmWorld "" log effect

def oneFixContext : Context where
  js := MergeGate.plainJs
  env _ := none
  issue := 7
  ghBin := some "gh"
  repo := "o/r"
  adwId := "0123abcd"
  opts := { resolveOptions MergeGate.calmOptions with maxCiFix := .ofNat 1, ciMaxPolls := .ofNat 0 }

theorem oneFix_bounded :
    ∃ added, ciFixLoop oneFixContext ⟨"gh", "o/r"⟩ "fix" 5 (.posInt 42) fixingWorld [] =
        (.returned true, added) ∧
      ciCalls added ≤ 5 ∧ agentCalls added ≤ 1 ∧ Justified added ∧ Green added := by
  obtain ⟨added, outcome, hRun, -, hCalls, hAgents, hJustified, hGreen, hReturns⟩ :=
    @ciFixLoop_bounded oneFixContext ⟨"gh", "o/r"⟩ "fix" (.posInt 42) 1 0 5 (by decide +kernel)
      (by decide +kernel) (by decide) fixingWorld []
  obtain ⟨green, rfl⟩ := hReturns fun log effect => by cases effect <;> exact ⟨_, rfl⟩
  have hTrue : (ciFixLoop oneFixContext ⟨"gh", "o/r"⟩ "fix" 5 (.posInt 42) fixingWorld []).1 =
      .returned true := by decide +kernel
  rw [hRun] at hTrue
  cases hTrue
  exact ⟨added, hRun, hCalls, hAgents, hJustified, hGreen rfl⟩

end MxAgent.System.CiFixBounds
