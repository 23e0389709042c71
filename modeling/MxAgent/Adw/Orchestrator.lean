import MxAgent.Adw.Phases
import MxAgent.Foundations.EffectLog

/-! The delivery driver: one run takes an issue through its phases, commits, opens a pull
request, watches its checks and merges it. Everything outside, from the state file to the coding
agent, is an effect; `run` is the whole sequence. The texts of comments and prompts are left to
the effects. -/
namespace MxAgent.Adw

open Protocol EffectLog

structure RunOptions where
  base : Option String
  phases : Option String
  adwId : Option String
  resume : Option Bool
  noProgress : Option Bool
  maxResolve : Option JsNumber
  maxPatch : Option JsNumber
  maxCiFix : Option JsNumber
  ciPollIntervalMs : Option JsNumber
  ciMaxPolls : Option JsNumber
  testCmd : Option String
  repo : Option String
  verify : Option Bool
  force : Option Bool
  allowDirty : Option Bool
  yes : Option Bool
  dryRun : Option Bool

structure ResolvedOptions where
  base : String
  phases : Option String
  adwId : Option String
  resume : Bool
  noProgress : Bool
  maxResolve : JsNumber
  maxPatch : JsNumber
  maxCiFix : JsNumber
  ciPollIntervalMs : JsNumber
  ciMaxPolls : JsNumber
  testCmd : String
  repo : Option String
  verify : Bool
  force : Bool
  allowDirty : Bool
  yes : Bool
  dryRun : Bool

def resolveOptions (options : RunOptions) : ResolvedOptions where
  base := options.base.getD "main"
  phases := options.phases
  adwId := options.adwId
  resume := options.resume.getD false
  noProgress := options.noProgress.getD false
  maxResolve := options.maxResolve.getD (.ofNat 3)
  maxPatch := options.maxPatch.getD (.ofNat 2)
  maxCiFix := options.maxCiFix.getD (.ofNat 3)
  ciPollIntervalMs := options.ciPollIntervalMs.getD (.ofNat 30000)
  ciMaxPolls := options.ciMaxPolls.getD (.ofNat 40)
  testCmd := options.testCmd.getD ""
  repo := options.repo
  verify := options.verify.getD true
  force := options.force.getD false
  allowDirty := options.allowDirty.getD false
  yes := options.yes.getD false
  dryRun := options.dryRun.getD false

structure GitResult where
  ok : Bool
  error : Option String
  deriving DecidableEq, Repr

/-- How an error that may be `null` shows in a message. -/
def GitResult.errorText (result : GitResult) : String := result.error.getD "null"

structure CreatePrResult where
  number : Option Number
  url : Option String
  error : Option String
  deriving DecidableEq, Repr

/-- `createPr`, from what `gh pr create` printed: the last line is the URL. -/
def createPrResult (returncode : Int) (stdout stderr : String) : CreatePrResult :=
  if returncode ≠ 0 then
    ⟨none, none, some ((truthy (some (trim stderr))).getD "gh pr create failed")⟩
  else
    let url := String.ofList (((trim stdout).toList.splitOn '\n').getLastD [])
    ⟨prNumberFromUrl url, truthy (some url), none⟩

inductive CiState where
  | success | failure | pending | none | unknown
  deriving DecidableEq, Repr

structure CiStatus where
  state : CiState
  failingJobs : List String
  deriving DecidableEq, Repr

/-- What `gh pr` is asked about: a number, or else a URL or an empty text. -/
inductive PrRef where
  | number (value : Number)
  | text (value : String)
  deriving DecidableEq, Repr

structure IssueContext where
  title : String
  body : String
  labels : List String
  deriving DecidableEq, Repr

/-- What an agent phase reports, as far as the driver reads it. -/
structure PhaseData where
  issueClass : String
  planFile : Option String
  filesChanged : List String
  findings : List ReviewFinding
  resolved : JsNumber
  remaining : JsNumber
  deriving DecidableEq

structure Gh where
  bin : String
  repo : String
  deriving DecidableEq, Repr

inductive Effect where
  | resolveGhBin
  | detectRepo (ghBin : Option String)
  | issueState (gh : Gh) (issue : Nat)
  /-- The JSON of a state file, if it can be read and parsed. -/
  | readState (adwId : String)
  | makeAdwId
  | save (state : AdwState)
  | workingTreeDirty
  | postProgress (ghBin : Option String) (issue : Nat) (repo adwId phase : String)
  | fetchIssue (ghBin : Option String) (issue : Nat) (repo : String)
  | createOrCheckoutBranch (branch base : String)
  | capture (command : List String)
  | setStatus (ghBin owner : String) (issue : Nat) (status : String)
  | changedFiles (base : String)
  | runnerStart
  | runnerStop
  | runCmd (command : List String)
  | sleep (ms : JsNumber)
  | runAgentPhase (phase : AgentPhase)
  /-- A prompt or transcript is composed and written. -/
  | writeArtifact (phase : AgentPhase) (file : String)
  | classify
  | readCommitMessage
  | readPrBody
  | commitAll (message : String)
  | push (branch : String)
  | pullRebase (base : String)
  | prForBranch (branch : String) (gh : Gh)
  | createPr (branch title body base : String) (gh : Gh)
  | ciStatus (pr : Number) (gh : Gh)
  | isatty
  | confirm
  | squashMerge (pr : PrRef) (gh : Gh)
  deriving DecidableEq

@[reducible] def Effect.Answer : Effect → Type
  | .resolveGhBin => Option String
  | .detectRepo _ => String
  | .issueState _ _ => String
  | .readState _ => Option Value
  | .makeAdwId => { id : String // isAdwId id = true }
  | .save _ => Unit
  | .workingTreeDirty => Bool
  | .postProgress .. => Unit
  | .fetchIssue .. => Option IssueContext
  | .createOrCheckoutBranch _ _ => GitResult
  | .capture _ => Unit
  | .setStatus .. => Unit
  | .changedFiles _ => List String
  | .runnerStart | .runnerStop => Unit
  | .runCmd _ => Int
  | .sleep _ => Unit
  | .runAgentPhase _ => PhaseData
  | .writeArtifact _ _ => Unit
  | .classify => String
  | .readCommitMessage | .readPrBody => Option String
  | .commitAll _ | .push _ | .pullRebase _ => GitResult
  | .prForBranch _ _ => Option String
  | .createPr .. => CreatePrResult
  | .ciStatus _ _ => CiStatus
  | .isatty | .confirm => Bool
  | .squashMerge _ _ => GitResult

/-- Points of a run that are not effects: `ciFixLoop` or `confirmMerge` has returned. -/
inductive Mark where
  | ciFixLoop (pr : Number) (green : Bool)
  | confirmMerge
  deriving DecidableEq

abbrev LogEntry := Entry Effect Effect.Answer Mark Thrown

abbrev Driver := Program Effect Effect.Answer Mark Thrown

open Program (mark throw outOfTurns ignoringErrors withFinally)

abbrev perform (effect : Effect) : Driver effect.Answer := Program.perform effect

def ensure (condition : Bool) (message : String) : Driver Unit :=
  if condition then pure () else throw (.adw message)

structure Context where
  js : Js
  env : String → Option String
  issue : Nat
  ghBin : Option String
  repo : String
  adwId : String
  opts : ResolvedOptions

def progress (ctx : Context) (phase : String) : Driver Unit :=
  if ctx.opts.noProgress then pure ()
  else perform (.postProgress ctx.ghBin ctx.issue ctx.repo ctx.adwId phase)

/-- `AdwState.save`, whose failures are swallowed. -/
def save (state : AdwState) : Driver Unit := ignoringErrors (perform (.save state))

def defaultTestCmd : String := "cargo test --all"

def finalizeGates (testCmd : String) : List String :=
  [if testCmd = "" then defaultTestCmd else testCmd, "cargo fmt --all --check",
    "cargo clippy --all-targets --all-features -- -D warnings", "cargo build --all"]

/-- `resolveLoop`, with as many turns as it is given. -/
def resolveLoop (ctx : Context) (testCmd : String) : (turns attempt : Nat) → Driver Bool
  | 0, _ => outOfTurns
  | turns + 1, attempt => do
      let rc ← perform (.runCmd (shellSplit testCmd))
      if rc = 0 then
        progress ctx "resolve"
        pure true
      else if ctx.opts.maxResolve.le (.ofNat attempt) then
        progress ctx "resolve"
        pure false
      else
        progress ctx "resolve"
        let outcome ← perform (.runAgentPhase .resolve)
        if outcome.resolved = .ofNat 0 then
          progress ctx "resolve"
          pure false
        else resolveLoop ctx testCmd turns (attempt + 1)

/-- The loop of `patchLoop` with a number of turns: the blockers that remain. -/
def patchFrom (ctx : Context) : (turns attempt : Nat) → (remaining : JsNumber) → Driver JsNumber
  | 0, _, _ => outOfTurns
  | turns + 1, attempt, remaining =>
    if (JsNumber.ofNat 0).lt remaining && (JsNumber.ofNat attempt).lt ctx.opts.maxPatch then do
      progress ctx "patch"
      let outcome ← perform (.runAgentPhase .patch)
      if outcome.resolved = .ofNat 0 || remaining.le outcome.remaining then
        pure outcome.remaining
      else patchFrom ctx turns (attempt + 1) outcome.remaining
    else pure remaining

def patchBlockers (ctx : Context) (turns : Nat) (blockers : List ReviewFinding) : Driver Bool :=
  if blockers.isEmpty then do
    progress ctx "patch"
    pure true
  else do
    let remaining ← patchFrom ctx turns 0 (.ofNat blockers.length)
    pure (remaining == .ofNat 0)

/-- `patchLoop`. Findings that are no blockers are only reported. -/
def patchLoop (ctx : Context) (turns : Nat) (findings : List ReviewFinding) : Driver Bool :=
  let blockers := findings.filter fun finding => finding.severity == "blocker"
  if blockers.length < findings.length then do
    progress ctx "patch"
    patchBlockers ctx turns blockers
  else patchBlockers ctx turns blockers

def noChecksSettlePolls : Nat := 3

def pollSleep (ctx : Context) : Driver Unit :=
  if (JsNumber.ofNat 0).lt ctx.opts.ciPollIntervalMs then
    perform (.sleep ctx.opts.ciPollIntervalMs)
  else pure ()

def CiStatus.names (status : CiStatus) : String :=
  let names := ", ".intercalate status.failingJobs
  if names = "" then "unknown jobs" else names

structure CiCounters where
  attempt : Nat
  polls : Nat
  nonePolls : Nat
  deriving DecidableEq, Repr

/-- `ciFixLoop` with a number of turns. Polls without checks are counted throughout. -/
def ciFixFrom (ctx : Context) (gh : Gh) (branch : String) (pr : Number) :
    (turns : Nat) → CiCounters → Driver Bool
  | 0, _ => outOfTurns
  | turns + 1, counters => do
      let status ← perform (.ciStatus pr gh)
      match status.state with
      | .success =>
        progress ctx "ci-fix"
        pure true
      | .none =>
        if noChecksSettlePolls < counters.nonePolls + 1 then
          progress ctx "ci-fix"
          pure true
        else
          pollSleep ctx
          ciFixFrom ctx gh branch pr turns { counters with nonePolls := counters.nonePolls + 1 }
      | .unknown =>
        progress ctx "ci-fix"
        pure false
      | .pending =>
        if ctx.opts.ciMaxPolls.lt (.ofNat (counters.polls + 1)) then
          progress ctx "ci-fix"
          pure false
        else
          pollSleep ctx
          ciFixFrom ctx gh branch pr turns { counters with polls := counters.polls + 1 }
      | .failure =>
        if ctx.opts.maxCiFix.le (.ofNat counters.attempt) then
          progress ctx "ci-fix"
          pure false
        else
          progress ctx "ci-fix"
          let outcome ← perform (.runAgentPhase .resolve)
          if outcome.resolved = .ofNat 0 then
            progress ctx "ci-fix"
            pure false
          else
            let dirty ← perform .workingTreeDirty
            if !dirty then
              progress ctx "ci-fix"
              pure false
            else
              let committed ← perform
                (.commitAll ("fix: address CI failures (" ++ status.names ++ ")"))
              if committed.ok then
                let _ ← perform (.push branch)
                ciFixFrom ctx gh branch pr turns
                  { counters with attempt := counters.attempt + 1, polls := 0 }
              else
                ciFixFrom ctx gh branch pr turns
                  { counters with attempt := counters.attempt + 1 }

/-- `ciFixLoop`, with a mark when it returns. -/
def ciFixLoop (ctx : Context) (gh : Gh) (branch : String) (turns : Nat) (pr : Number) :
    Driver Bool := do
  let green ← ciFixFrom ctx gh branch pr turns ⟨0, 0, 0⟩
  mark (.ciFixLoop pr green)
  pure green

/-- `confirmMerge`, with a mark when it returns. -/
def confirmMerge (ctx : Context) : Driver Unit := do
  let isatty ← perform .isatty
  if ctx.opts.yes || ctx.env "MX_AGENT_YES" == some "1" then mark .confirmMerge
  else
    ensure isatty "refusing to merge unattended without --yes / MX_AGENT_YES=1"
    let confirmed ← perform .confirm
    ensure confirmed "aborted"
    mark .confirmMerge

def runGates (ctx : Context) : List String → Driver Unit
  | [] => progress ctx "finalize"
  | gate :: rest => do
      let rc ← perform (.runCmd (shellSplit gate))
      if rc = 0 then runGates ctx rest
      else
        progress ctx "finalize"
        throw (.adw ("pre-merge gate failed: " ++ gate))

def AdwState.branch (state : AdwState) : String := state.branchName.getD ""

/-- `finalizeAndMerge`, from the commit to the push. -/
def commitAndPush (ctx : Context) (state : AdwState) : Driver Unit := do
  let committed ← perform (.commitAll (state.commitMessage.getD
    ("feat: implement issue #" ++ toString ctx.issue ++ "\n\ncloses #" ++ toString ctx.issue)))
  ensure committed.ok ("commit failed: " ++ committed.errorText)
  let pushed ← perform (.push state.branch)
  ensure pushed.ok ("push failed: " ++ pushed.errorText)

def firstLine (text : String) : String := String.ofList (text.toList.takeWhile (· != '\n'))

/-- `finalizeAndMerge`, for a branch that has no pull request yet. -/
def createPrFor (ctx : Context) (gh : Gh) (state : AdwState) : Driver AdwState := do
  let title := firstLine (state.commitMessage.getD ("Implement issue #" ++ toString ctx.issue))
  let body := state.prBody.getD ("Closes #" ++ toString ctx.issue)
  let created ← perform (.createPr state.branch title body ctx.opts.base gh)
  match truthy created.error with
  | some error => throw (.adw ("failed to open PR: " ++ error))
  | none => pure { state with prNumber := created.number, prUrl := created.url }

/-- `finalizeAndMerge`, from the lookup of the pull request to its number. -/
def openPr (ctx : Context) (gh : Gh) (state : AdwState) : Driver AdwState := do
  let found ← perform (.prForBranch state.branch gh)
  match truthy found with
  | some url => pure { state with prUrl := some url, prNumber := prNumberFromUrl url }
  | none => createPrFor ctx gh state

/-- `finalizeAndMerge`, the watch over the checks. Without a number there is none. -/
def watchCi (ctx : Context) (gh : Gh) (turns : Nat) (state : AdwState) : Driver Unit :=
  match state.prNumber with
  | none => pure ()
  | some pr => do
      let green ← ciFixLoop ctx gh state.branch turns pr
      ensure green "CI is not green; refusing to merge"

def AdwState.prRef (state : AdwState) : PrRef :=
  match state.prNumber with
  | some pr => .number pr
  | none => .text (state.prUrl.getD "")

def verifyClosed (ctx : Context) (gh : Gh) : Driver Unit :=
  if ctx.opts.verify then do
    let issueState ← perform (.issueState gh ctx.issue)
    ensure (issueState == "CLOSED") ("issue #" ++ toString ctx.issue ++ " is still " ++
      issueState ++
      " after merge; treating as failure")
    progress ctx "report"
  else pure ()

/-- `finalizeAndMerge`, from the answer to the merge on. -/
def afterMerge (ctx : Context) (gh : Gh) (state : AdwState) (merged : GitResult) :
    Driver Nat := do
  ensure merged.ok ("merge failed: " ++ merged.errorText)
  let _ ← perform (.pullRebase ctx.opts.base)
  save (state.markDone "merge")
  verifyClosed ctx gh
  progress ctx "report"
  pure 0

/-- `finalizeAndMerge` of a run that has merged before. -/
def reportMerged (ctx : Context) : Driver Nat := do
  progress ctx "report"
  match truthy ctx.ghBin with
  | some bin =>
    if ctx.opts.verify then
      let issueState ← perform (.issueState ⟨bin, ctx.repo⟩ ctx.issue)
      ensure (issueState == "CLOSED") ("issue #" ++ toString ctx.issue ++ " is " ++ issueState ++
        " despite a recorded merge; treating as failure")
    pure 0
  | none => pure 0

def finalizeAndMerge (ctx : Context) (turns : Nat) (state : AdwState) : Driver Nat :=
  if state.isDone "merge" then reportMerged ctx
  else do
    runGates ctx (finalizeGates ctx.opts.testCmd)
    commitAndPush ctx state
    match truthy ctx.ghBin with
    | none => throw (.adw "gh not found; cannot open or merge a PR (install gh or set GH_BIN)")
    | some bin =>
      let state ← openPr ctx ⟨bin, ctx.repo⟩ state
      save state
      progress ctx "finalize"
      watchCi ctx ⟨bin, ctx.repo⟩ turns state
      confirmMerge ctx
      let merged ← perform (.squashMerge state.prRef ⟨bin, ctx.repo⟩)
      afterMerge ctx ⟨bin, ctx.repo⟩ state merged

def setup (ctx : Context) (issueContext : IssueContext) (state : AdwState) : Driver AdwState := do
  let branch := deriveBranch ctx.js ctx.issue issueContext.title issueContext.labels state.adwId
  let switched ← perform (.createOrCheckoutBranch branch ctx.opts.base)
  ensure switched.ok
    ("failed to create/checkout branch " ++ branch ++ ": " ++ switched.errorText)
  progress ctx "setup"
  match truthy ctx.ghBin with
  | none => pure ()
  | some bin =>
    perform (.capture ([bin, "issue", "edit", toString ctx.issue, "--add-assignee", "@me"] ++
      if ctx.repo = "" then [] else ["--repo", ctx.repo]))
    let owner := String.ofList (ctx.repo.toList.takeWhile (· != '/'))
    if owner ≠ "" then
      ignoringErrors (perform (.setStatus bin owner ctx.issue "In Progress"))
  pure { state with branchName := some branch }

/-- `absorbAuthoredText`: what the review and document phases wrote to files. -/
def absorbAuthoredText (state : AdwState) : Driver AdwState := do
  let commitMessage ← perform .readCommitMessage
  let prBody ← perform .readPrBody
  pure { state with
    commitMessage := (truthy (commitMessage.map trim)).or state.commitMessage
    prBody := (truthy (prBody.map trim)).or state.prBody }

def applyResult (state : AdwState) (phase : AgentPhase) (data : PhaseData) : AdwState :=
  match phase with
  | .classify => { state with issueClass := some data.issueClass }
  | .plan => { state with planFile := (truthy data.planFile).or state.planFile }
  | _ => state

structure PhaseState where
  state : AdwState
  files : List String
  signal : String
  review : Option (List ReviewFinding)

def finishPhase (phase : AgentPhase) (s : PhaseState) : Driver PhaseState := do
  let state := s.state.markDone phase.name
  save state
  pure { s with state }

def absorbResult (phase : AgentPhase) (data : PhaseData) (s : PhaseState) : Driver PhaseState := do
  let state := applyResult s.state phase data
  match phase with
  | .review =>
    let state ← absorbAuthoredText state
    pure { s with
      state := { state with reviewFindings := data.findings.map ReviewFinding.toObject }
      review := some data.findings }
  | .document =>
    let state ← absorbAuthoredText state
    pure { s with state }
  | .implement =>
    let files := if data.filesChanged.isEmpty then s.files else data.filesChanged
    pure { s with state, files, signal := s.signal ++ " " ++ " ".intercalate files }
  | _ => pure { s with state }

def runPhase (ctx : Context) (turns : Nat) (phase : AgentPhase) (s : PhaseState) :
    Driver PhaseState := do
  if s.state.isDone phase.name then pure s
  else if phase.isConditional && !gateConditional ctx.js phase s.signal s.files then
    progress ctx phase.name
    finishPhase phase s
  else
    match phase with
    | .resolve =>
      let testCmd := if ctx.opts.testCmd = "" then defaultTestCmd else ctx.opts.testCmd
      let _ ← resolveLoop ctx testCmd turns 0
      finishPhase phase s
    | .patch =>
      let findings := s.review.getD (AdwState.findingsFromState ctx.js s.state)
      let _ ← patchLoop ctx turns findings
      finishPhase phase s
    | .classify =>
      if ctx.env "MX_AGENT_CLASSIFY_ON_RUNNER" == some "1" then
        let data ← perform (.runAgentPhase phase)
        let s ← absorbResult phase data s
        let s ← finishPhase phase s
        progress ctx phase.name
        pure s
      else
        perform (.writeArtifact phase "prompt.txt")
        let issueClass ← perform .classify
        perform (.writeArtifact phase "transcript.log")
        let s ← finishPhase phase
          { s with state := { s.state with issueClass := some issueClass } }
        progress ctx phase.name
        pure s
    | _ =>
      let data ← perform (.runAgentPhase phase)
      let s ← absorbResult phase data s
      let s ← finishPhase phase s
      progress ctx phase.name
      pure s

def runPhases (ctx : Context) (turns : Nat) : List AgentPhase → PhaseState → Driver PhaseState
  | [], s => pure s
  | phase :: rest, s => do
      let s ← runPhase ctx turns phase s
      runPhases ctx turns rest s

/-- `resolveState` without a saved state. -/
def startState (opts : ResolvedOptions) (issue : Nat) (adwId : String)
    (valid : isAdwId adwId) : Driver (AdwState × Bool) := do
  let state := AdwState.new adwId valid (toString issue) opts.base
  save state
  pure (state, false)

/-- `resolveState` with a saved state. A run is bound to its issue. -/
def resumeState (opts : ResolvedOptions) (issue : Nat) (adwId : String) (state : AdwState) :
    Driver (AdwState × Bool) := do
  ensure opts.resume
    ("adw_id " ++ adwId ++ " already has saved state; pass --resume to continue it")
  let bound := (truthy state.issueNumber).getD (toString issue)
  ensure (bound == toString issue)
    ("adw_id " ++ state.adwId ++ " belongs to issue #" ++ bound ++ ", not #" ++ toString issue)
  let state := { state with issueNumber := some (toString issue) }
  save state
  pure (state, true)

/-- `resolveState`: the state of the run, and whether it was resumed. -/
def resolveState (opts : ResolvedOptions) (issue : Nat) : Driver (AdwState × Bool) :=
  match truthy opts.adwId with
  | none => do
      ensure (!opts.resume) "--resume requires --adw-id <id>"
      let id ← perform .makeAdwId
      startState opts issue id.1 id.2
  | some adwId =>
    if hId : isAdwId adwId = true then do
      let file ← perform (.readState adwId)
      match AdwState.load file with
      | none => startState opts issue adwId hId
      | some state => resumeState opts issue adwId state
    else throw (.adw ("invalid adw_id (want 8 hex chars): " ++ writeString adwId))

/-- The preflight of `run`: whether to go on. -/
def preflight (opts : ResolvedOptions) (ghBin : Option String) (repo : String) (issue : Nat) :
    Driver Bool :=
  if opts.verify || !opts.force then
    match truthy ghBin with
    | none => do
        ensure (!opts.verify)
          "gh not found but verification is on; install gh, set GH_BIN, or pass --no-verify"
        pure true
    | some bin => do
        let issueState ← perform (.issueState ⟨bin, repo⟩ issue)
        if issueState == "CLOSED" && !opts.force then pure false
        else
          ensure (issueState != "UNKNOWN") ("issue #" ++ toString issue ++ " not found in " ++
            (if repo = "" then "the current repo" else repo) ++ " (is gh authenticated?)")
          pure true
  else pure true

def checkTree (ctx : Context) (resumed : Bool) : Driver Unit :=
  if !ctx.opts.allowDirty && !resumed then do
    let dirty ← perform .workingTreeDirty
    ensure (!dirty) "working tree is dirty; commit/stash first or pass --allow-dirty"
  else pure ()

def setupOnce (ctx : Context) (issueContext : IssueContext) (state : AdwState) : Driver AdwState :=
  if state.isDone "setup" then pure state
  else do
    let state ← setup ctx issueContext state
    save (state.markDone "setup")
    pure (state.markDone "setup")

/-- `run`, from the resolved state to the start of the runner. -/
def prepare (ctx : Context) (state : AdwState) (resumed : Bool) : Driver PhaseState := do
  checkTree ctx resumed
  progress ctx "ops"
  let fetched ← perform (.fetchIssue ctx.ghBin ctx.issue ctx.repo)
  let issueContext := fetched.getD ⟨"", "", []⟩
  let state ← setupOnce ctx issueContext state
  let files ← perform (.changedFiles ctx.opts.base)
  let signal := " ".intercalate [issueContext.title, issueContext.body,
    " ".intercalate issueContext.labels, " ".intercalate files]
  perform .runnerStart
  pure ⟨state, files, signal, none⟩

/-- `run`, while the runner is started. -/
def deliver (ctx : Context) (turns : Nat) (phases : List AgentPhase) (s : PhaseState) :
    Driver Nat := do
  let s ← runPhases ctx turns phases s
  finalizeAndMerge ctx turns s.state

def findRepo (opts : ResolvedOptions) (ghBin : Option String) : Driver String :=
  match truthy opts.repo with
  | some repo => pure repo
  | none => perform (.detectRepo ghBin)

/-- `run`, with as many turns for each of its loops as it is given. -/
def run (js : Js) (env : String → Option String) (issue : Nat) (runner : String)
    (options : RunOptions) (turns : Nat) : Driver Nat :=
  let opts := resolveOptions options
  match parsePhases opts.phases with
  | .error error => throw error
  | .ok phases =>
    if opts.dryRun then pure 0
    else do
      let ghBin ← perform .resolveGhBin
      let repo ← findRepo opts ghBin
      let goOn ← preflight opts ghBin repo issue
      if !goOn then pure 0
      else
        let (state, resumed) ← resolveState opts issue
        let state := { state with engine := some "ts", runner := some runner }
        let ctx : Context := ⟨js, env, issue, ghBin, repo, state.adwId, opts⟩
        save state
        let s ← prepare ctx state resumed
        withFinally (deliver ctx turns phases s) (perform .runnerStop)

end MxAgent.Adw
