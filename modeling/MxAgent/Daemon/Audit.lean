import MxAgent.Daemon.Runner

/-! What the audit log records of a command. -/
namespace MxAgent.Daemon

def redacted : String := "***redacted***"

def normalizeKey (key : String) : String :=
  String.ofList ((key.toList.dropWhile (· == '-')).map fun c => if c == '-' then '_' else c)

/-- The part of an argument before its first `=`. -/
def keyOf (arg : String) : String := String.ofList (arg.toList.takeWhile (· != '='))

/-- The loop of `redact_command`. The flag is `redact_next`. -/
def redactFrom : Bool → List String → List String
  | _, [] => []
  | true, _ :: args => redacted :: redactFrom false args
  | false, arg :: args =>
    if arg.toList.contains '=' then
      if isSensitiveKey (normalizeKey (keyOf arg)) then
        (keyOf arg ++ "=" ++ redacted) :: redactFrom false args
      else arg :: redactFrom false args
    else if startsWithText arg "-" && isSensitiveKey (normalizeKey arg) then
      arg :: redactFrom true args
    else arg :: redactFrom false args

def redactCommand (args : List String) : List String := redactFrom false args

def isSecretFlag (arg : String) : Bool :=
  !arg.toList.contains '=' && startsWithText arg "-" && isSensitiveKey (normalizeKey arg)

/-- An argument without what it assigns to a sensitive key. -/
def maskAssigned (arg : String) : String :=
  if arg.toList.contains '=' && isSensitiveKey (normalizeKey (keyOf arg)) then
    keyOf arg ++ "=" ++ redacted
  else arg

/-- Whether an argument is the value of a flag in front of it that is no such value itself. For the
first one `hide` says so. -/
def isFlagValue (hide : Bool) (args : List String) : Nat → Bool
  | 0 => hide
  | i + 1 => !isFlagValue hide args i && args[i]?.any isSecretFlag

def shownAt (hide : Bool) (args : List String) (i : Nat) (arg : String) : String :=
  if isFlagValue hide args i then redacted else maskAssigned arg

variable {hide : Bool} {args other : List String} {arg key : String} {i : Nat}

theorem isFlagValue_cons (hide : Bool) (arg : String) (args : List String) (i : Nat) :
    isFlagValue hide (arg :: args) (i + 1) = isFlagValue (!hide && isSecretFlag arg) args i := by
  induction i with
  | zero => rfl
  | succ i ih => rw [isFlagValue, ih, List.getElem?_cons_succ, isFlagValue]

theorem redactFrom_cons (hide : Bool) (arg : String) (args : List String) :
    redactFrom hide (arg :: args) =
      (if hide then redacted else maskAssigned arg) ::
        redactFrom (!hide && isSecretFlag arg) args := by
  cases hide with
  | true => rfl
  | false =>
    simp only [redactFrom, maskAssigned, isSecretFlag]
    cases arg.toList.contains '=' <;> cases isSensitiveKey (normalizeKey (keyOf arg)) <;>
      cases startsWithText arg "-" <;> cases isSensitiveKey (normalizeKey arg) <;> rfl

/-- The whole output of the loop. -/
theorem getElem?_redactFrom (hide : Bool) (args : List String) (i : Nat) :
    (redactFrom hide args)[i]? = args[i]?.map (shownAt hide args i) := by
  induction args generalizing hide i with
  | nil => rw [redactFrom, List.getElem?_nil, Option.map_none]
  | cons arg args ih =>
    rw [redactFrom_cons]
    cases i with
    | zero => rfl
    | succ i =>
      rw [List.getElem?_cons_succ, List.getElem?_cons_succ, ih]
      unfold shownAt
      rw [isFlagValue_cons]

theorem length_redactFrom (hide : Bool) (args : List String) :
    (redactFrom hide args).length = args.length := by
  induction args generalizing hide with
  | nil => rw [redactFrom]
  | cons arg args ih => rw [redactFrom_cons, List.length_cons, List.length_cons, ih]

theorem toList_assignment (key value : String) :
    (key ++ "=" ++ value).toList = key.toList ++ '=' :: value.toList := by
  rw [String.toList_append, String.toList_append, List.append_assoc]
  rfl

theorem contains_assignment (key value : String) : (key ++ "=" ++ value).toList.contains '=' := by
  rw [toList_assignment]
  simp

theorem keyOf_assignment (h : '=' ∉ key.toList) (value : String) :
    keyOf (key ++ "=" ++ value) = key := by
  have hKey : ∀ c ∈ key.toList, (c != '=') := fun c hc =>
    bne_iff_ne.mpr fun hEq => h (hEq ▸ hc)
  rw [keyOf, toList_assignment, List.takeWhile_append_of_pos hKey]
  simp

theorem isSecretFlag_assignment (key value : String) :
    isSecretFlag (key ++ "=" ++ value) = false := by
  rw [isSecretFlag, contains_assignment]
  rfl

theorem maskAssigned_assignment (h : '=' ∉ key.toList)
    (hSensitive : isSensitiveKey (normalizeKey key)) (value : String) :
    maskAssigned (key ++ "=" ++ value) = key ++ "=" ++ redacted := by
  rw [maskAssigned, contains_assignment, keyOf_assignment h, hSensitive]
  rfl

/-- An argument is kept unless it is an assignment to a sensitive key. -/
theorem maskAssigned_cases (arg : String) :
    maskAssigned arg = arg ∨ ∃ key value, arg = key ++ "=" ++ value ∧ '=' ∉ key.toList ∧
      isSensitiveKey (normalizeKey key) := by
  by_cases h : (arg.toList.contains '=' && isSensitiveKey (normalizeKey (keyOf arg)))
  · obtain ⟨hContains, hSensitive⟩ := Bool.and_eq_true_iff.mp h
    obtain ⟨front, back, hText, hFront⟩ :=
      List.eq_append_cons_of_mem (List.contains_iff_mem.mp hContains)
    have hKey : '=' ∉ (String.ofList front).toList := by rwa [String.toList_ofList]
    have hArg : arg = String.ofList front ++ "=" ++ String.ofList back := by
      rw [← String.toList_inj, toList_assignment, hText, String.toList_ofList,
        String.toList_ofList]
    rw [hArg, keyOf_assignment hKey] at hSensitive
    exact .inr ⟨_, _, hArg, hKey, hSensitive⟩
  · exact .inl (if_neg h)

theorem maskAssigned_maskAssigned (arg : String) :
    maskAssigned (maskAssigned arg) = maskAssigned arg := by
  obtain hKept | ⟨key, value, rfl, hKey, hSensitive⟩ := maskAssigned_cases arg
  · rw [hKept, hKept]
  · rw [maskAssigned_assignment hKey hSensitive, maskAssigned_assignment hKey hSensitive]

theorem isSecretFlag_maskAssigned (arg : String) :
    isSecretFlag (maskAssigned arg) = isSecretFlag arg := by
  obtain hKept | ⟨key, value, rfl, hKey, hSensitive⟩ := maskAssigned_cases arg
  · rw [hKept]
  · rw [maskAssigned_assignment hKey hSensitive, isSecretFlag_assignment, isSecretFlag_assignment]

theorem any_isSecretFlag (arg : Option String) :
    (arg.map maskAssigned).any isSecretFlag = arg.any isSecretFlag := by
  cases arg with
  | none => rfl
  | some arg => exact isSecretFlag_maskAssigned arg

section Alike

-- Another command that shows the same in every place.
variable (hAlike : ∀ i, other[i]?.map (shownAt hide args i) = args[i]?.map (shownAt hide args i))

include hAlike

/-- The values of flags are in the same places. -/
theorem isFlagValue_congr (i : Nat) : isFlagValue hide other i = isFlagValue hide args i := by
  induction i with
  | zero => rfl
  | succ i ih =>
    rw [isFlagValue, isFlagValue, ih]
    cases hValue : isFlagValue hide args i with
    | true => rfl
    | false =>
      have hShown : shownAt hide args i = maskAssigned := by
        unfold shownAt
        rw [hValue]
        rfl
      have hMasked := hAlike i
      rw [hShown] at hMasked
      rw [← any_isSecretFlag, hMasked, any_isSecretFlag]

theorem redactFrom_congr : redactFrom hide other = redactFrom hide args := by
  apply List.ext_getElem?
  intro i
  have hShown : shownAt hide other i = shownAt hide args i := by
    unfold shownAt
    rw [isFlagValue_congr hAlike]
  rw [getElem?_redactFrom, getElem?_redactFrom, hShown, hAlike]

end Alike

theorem shownAt_shownAt (hide : Bool) (args : List String) (i : Nat) (arg : String) :
    shownAt hide args i (shownAt hide args i arg) = shownAt hide args i arg := by
  unfold shownAt
  split
  · rfl
  · exact maskAssigned_maskAssigned arg

/-- The part of an argument that the log hides, after what it shows: all of it after a sensitive
flag, or what follows the first `=` of a sensitive key. -/
inductive Hides (args : List String) (i : Nat) : String → String → Prop
  | value {arg : String} (hArg : args[i]? = some arg) (hValue : isFlagValue false args i) :
    Hides args i "" arg
  | assigned {key value : String} (hArg : args[i]? = some (key ++ "=" ++ value))
    (hValue : isFlagValue false args i = false) (hKey : '=' ∉ key.toList)
    (hSensitive : isSensitiveKey (normalizeKey key)) : Hides args i (key ++ "=") value

theorem Hides.getElem? {shown hidden : String} (h : Hides args i shown hidden) :
    args[i]? = some (shown ++ hidden) := by
  cases h with
  | value hArg hValue => rwa [String.empty_append]
  | assigned hArg hValue hKey hSensitive => exact hArg

theorem Hides.shownAt {shown hidden : String} (h : Hides args i shown hidden) (text : String) :
    shownAt false args i (shown ++ text) = shown ++ redacted := by
  unfold Daemon.shownAt
  cases h with
  | value hArg hValue => rw [hValue, if_pos rfl, String.empty_append]
  | assigned hArg hValue hKey hSensitive =>
    rw [hValue, if_neg Bool.false_ne_true, maskAssigned_assignment hKey hSensitive]

theorem shownAt_of_not_hides (hArg : args[i]? = some arg)
    (h : ∀ shown hidden, ¬ Hides args i shown hidden) : shownAt false args i arg = arg := by
  unfold shownAt
  split
  · rename_i hValue
    exact absurd (.value hArg hValue) (h _ _)
  · rename_i hValue
    obtain hKept | ⟨key, value, rfl, hKey, hSensitive⟩ := maskAssigned_cases arg
    · exact hKept
    · exact absurd (.assigned hArg (Bool.eq_false_of_not_eq_true hValue) hKey hSensitive) (h _ _)

/-- The log hides values: the lengths agree, a redaction does not depend on what it hides, other
arguments stay, and redacting again changes nothing. -/
theorem redactCommand_hides_values (args : List String) :
    (redactCommand args).length = args.length ∧
    (∀ i shown hidden, Hides args i shown hidden →
      (redactCommand args)[i]? = some (shown ++ redacted) ∧
      ∀ text, redactCommand (args.set i (shown ++ text)) = redactCommand args) ∧
    (∀ i, (∀ shown hidden, ¬ Hides args i shown hidden) →
      (redactCommand args)[i]? = args[i]?) ∧
    redactCommand (redactCommand args) = redactCommand args := by
  refine ⟨length_redactFrom false args, ?_, ?_, ?_⟩
  · intro i shown hidden hHides
    refine ⟨?_, fun text => redactFrom_congr fun j => ?_⟩
    · rw [redactCommand, getElem?_redactFrom, hHides.getElem?, Option.map_some, hHides.shownAt]
    · by_cases hEq : j = i
      · subst hEq
        have hLt : j < args.length := (List.getElem?_eq_some_iff.mp hHides.getElem?).1
        rw [List.getElem?_set_self hLt, hHides.getElem?, Option.map_some, Option.map_some,
          hHides.shownAt, hHides.shownAt]
      · rw [List.getElem?_set_ne (Ne.symm hEq)]
  · intro i hShown
    rw [redactCommand, getElem?_redactFrom]
    cases hArg : args[i]? with
    | none => rfl
    | some arg => rw [Option.map_some, shownAt_of_not_hides hArg hShown]
  · refine redactFrom_congr fun i => ?_
    rw [redactCommand, getElem?_redactFrom, Option.map_map]
    exact congrArg (args[i]?.map ·) (funext (shownAt_shownAt false args i))

/-- A flag's value may look like a flag, whose own value then is shown. -/
theorem token_value_hidden :
    Hides ["login", "--token", "--password", "me"] 2 "" "--password" ∧
      ∀ text, redactCommand ["login", "--token", text, "me"] =
        ["login", "--token", redacted, "me"] := by
  have hHides : Hides ["login", "--token", "--password", "me"] 2 "" "--password" :=
    .value rfl (by decide)
  refine ⟨hHides, fun text => ?_⟩
  have hText := ((redactCommand_hides_values _).2.1 _ _ _ hHides).2 text
  rw [String.empty_append] at hText
  exact hText.trans (by decide)

end MxAgent.Daemon
