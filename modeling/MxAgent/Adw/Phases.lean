import MxAgent.Adw.Js
import MxAgent.Protocol.Codec

/-! The phases of a delivery run and the state that is kept between runs. -/
namespace MxAgent.Adw

open Protocol

/-- What the driver throws itself, or what an effect throws. -/
inductive Thrown where
  | adw (message : String)
  | other (description : String)
  deriving DecidableEq, Repr

inductive AgentPhase where
  | classify | plan | implement | tests | resolve | e2e | review | patch | document
  deriving DecidableEq, Repr

namespace AgentPhase

def name : AgentPhase → String
  | .classify => "classify"
  | .plan => "plan"
  | .implement => "implement"
  | .tests => "tests"
  | .resolve => "resolve"
  | .e2e => "e2e"
  | .review => "review"
  | .patch => "patch"
  | .document => "document"

def all : List AgentPhase :=
  [.classify, .plan, .implement, .tests, .resolve, .e2e, .review, .patch, .document]

def ofName (name : String) : Option AgentPhase := all.find? fun phase => phase.name == name

def isConditional : AgentPhase → Bool
  | .e2e | .document => true
  | _ => false

end AgentPhase

def readPhases : List String → Except Thrown (List AgentPhase)
  | [] => .ok []
  | name :: rest =>
    match AgentPhase.ofName name with
    | none => .error (.adw ("unknown phase: " ++ name ++ " (known: " ++
        ", ".intercalate (AgentPhase.all.map AgentPhase.name) ++ ")"))
    | some phase => (readPhases rest).map (phase :: ·)

def parsePhases (csv : Option String) : Except Thrown (List AgentPhase) :=
  match truthy csv with
  | none => .ok AgentPhase.all
  | some csv =>
    let items := ((csv.toList.splitOn ',').map fun item => trim (String.ofList item)).filter
      (· ≠ "")
    if items.isEmpty then .error (.adw "no phases given") else readPhases items

def crossBoundaryHints : List String :=
  ["ipc", "daemon", "matrix", "signing", "signed", "signature", "trust", "policy", "sandbox", "pty",
    "stream", "artifact", "exec", "login", "sync", "scheduler"]

def docHints : List String :=
  ["cli", "help", "public api", "protocol", "schema", "user-visible", "user facing", "user-facing",
    "config", "command", "flag"]

def gateE2e (js : Js) (signal : String) : Bool :=
  (hintIn (js.toLowerCase signal) crossBoundaryHints).isSome

def gateDocument (js : Js) (signal : String) (changedFiles : List String) : Bool :=
  changedFiles.any (fun file => file == "README.md" || "docs/".toList.isPrefixOf file.toList ||
    "wiki/".toList.isPrefixOf file.toList || ".md".toList.isSuffixOf file.toList) ||
  (hintIn (js.toLowerCase signal) docHints).isSome

/-- `gateConditional`, asked of conditional phases only. -/
def gateConditional (js : Js) (phase : AgentPhase) (signal : String) (changedFiles : List String) :
    Bool :=
  match phase with
  | .e2e => gateE2e js signal
  | .document => gateDocument js signal changedFiles
  | _ => true

structure ReviewFinding where
  severity : String
  description : String
  location : String
  deriving DecidableEq, Repr

/-- `ADW_ID_RE`: eight hexadecimal digits. -/
def isAdwId (text : String) : Bool :=
  text.toList.length == 8 &&
    text.toList.all fun c => c.isDigit || ('a'.toNat ≤ c.toNat && c.toNat ≤ 'f'.toNat)

structure AdwState where
  adwId : String
  issueNumber : Option String
  issueClass : Option String
  branchName : Option String
  base : String
  planFile : Option String
  prNumber : Option Number
  prUrl : Option String
  commitMessage : Option String
  prBody : Option String
  reviewFindings : List Object
  completedPhases : List String
  engine : Option String
  runner : Option String
  adwId_valid : isAdwId adwId
  deriving DecidableEq

namespace AdwState

def isDone (state : AdwState) (phase : String) : Bool := state.completedPhases.contains phase

def markDone (state : AdwState) (phase : String) : AdwState :=
  if state.isDone phase then state
  else { state with completedPhases := state.completedPhases ++ [phase] }

def new (adwId : String) (valid : isAdwId adwId) (issueNumber base : String) : AdwState where
  adwId
  issueNumber := some issueNumber
  issueClass := none
  branchName := none
  base
  planFile := none
  prNumber := none
  prUrl := none
  commitMessage := none
  prBody := none
  reviewFindings := []
  completedPhases := []
  engine := none
  runner := none
  adwId_valid := valid

def stringField (doc : Object) (name : String) : Option String := doc[name]?.bind Value.asString

def numberField (doc : Object) (name : String) : Option Number :=
  match doc[name]? with
  | some (.number value) => some value
  | _ => none

def itemsField (doc : Object) (name : String) : List Value :=
  match doc[name]? with
  | some (.array items) => items
  | _ => []

/-- `AdwState.load`, from the state file's JSON if there is one. A field of another type than the
writer's gets its default. -/
def load (file : Option Value) : Option AdwState := do
  let doc ← file.bind Value.asObject
  let adwId ← stringField doc "adw_id"
  if h : isAdwId adwId = true then
    some {
      adwId
      issueNumber := stringField doc "issue_number"
      issueClass := stringField doc "issue_class"
      branchName := stringField doc "branch_name"
      base := (stringField doc "base").getD "main"
      planFile := stringField doc "plan_file"
      prNumber := numberField doc "pr_number"
      prUrl := stringField doc "pr_url"
      commitMessage := stringField doc "commit_message"
      prBody := stringField doc "pr_body"
      reviewFindings := (itemsField doc "review_findings").filterMap Value.asObject
      completedPhases := (itemsField doc "completed_phases").filterMap Value.asString
      engine := stringField doc "engine"
      runner := stringField doc "runner"
      adwId_valid := h }
  else none

/-- `String(f[name] ?? fallback)`. -/
def findingField (js : Js) (finding : Object) (name fallback : String) : String :=
  match finding[name]? with
  | none | some .null => fallback
  | some value => js.text value

def findingsFromState (js : Js) (state : AdwState) : List ReviewFinding :=
  state.reviewFindings.map fun finding =>
    ⟨findingField js finding "severity" "skippable", findingField js finding "description" "",
      findingField js finding "location" ""⟩

end AdwState

def ReviewFinding.toObject (finding : ReviewFinding) : Object :=
  Std.ExtTreeMap.ofList [("severity", Value.string finding.severity),
    ("description", Value.string finding.description),
    ("location", Value.string finding.location)]

def typePrefix : String → Option String
  | "type:bug" => some "fix"
  | "type:docs" => some "docs"
  | "type:ci" => some "ci"
  | "type:testing" => some "test"
  | _ => none

/-- `branchPrefix`: the last label with a type wins. -/
def branchPrefix (labels : List String) : String :=
  labels.foldl (fun found label => (typePrefix label).getD found) "feat"

/-- The text after `Phase issue <digits>:` and blanks, if a title has it. -/
def afterPhaseIssue (title : List Char) : List Char :=
  if "Phase issue ".toList.isPrefixOf title then
    let rest := title.drop "Phase issue ".toList.length
    match rest.takeWhile Char.isDigit, rest.dropWhile Char.isDigit with
    | _ :: _, ':' :: rest => rest.dropWhile (· == ' ')
    | _, _ => title
  else title

/-- Runs of other characters become one hyphen. `blank` says whether one has begun. -/
def hyphenate : Bool → List Char → List Char
  | _, [] => []
  | blank, c :: rest =>
    if c.isDigit || ('a'.toNat ≤ c.toNat && c.toNat ≤ 'z'.toNat) then c :: hyphenate false rest
    else if blank then hyphenate true rest
    else '-' :: hyphenate true rest

def dropHyphens (text : List Char) : List Char := text.dropWhile (· == '-')

def slugifyTitle (js : Js) (title : String) : String :=
  let lower := (js.toLowerCase (String.ofList (afterPhaseIssue title.toList))).toList
  let slug := (dropHyphens (dropHyphens (hyphenate false lower)).reverse).reverse
  String.ofList (dropHyphens (slug.take 40).reverse).reverse

def deriveBranch (js : Js) (issue : Nat) (title : String) (labels : List String)
    (adwId : String) : String :=
  branchPrefix labels ++ "/" ++ toString issue ++ "-" ++ adwId ++ "-" ++ slugifyTitle js title

end MxAgent.Adw
