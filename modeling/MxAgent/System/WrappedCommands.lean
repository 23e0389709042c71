import MxAgent.Daemon.Runner
import MxAgent.Sandbox.Launcher

/-! Wrapping a command for the sandbox and for the launcher changes nothing of the command. Each of
the rewriters puts a separator before what it was given, and each reader takes the first separator
it meets; as no flag before it is itself a separator, the command comes back as it was. -/
namespace MxAgent.System.WrappedCommands

open Daemon Fallible

def IsAbsolute (path : String) : Prop := path.toList.head? = some '/'

instance : DecidablePred IsAbsolute :=
  fun path => inferInstanceAs (Decidable (path.toList.head? = some '/'))

/-- The three rewriters in turn, as `build_command` and the terminal sessions call them. -/
def wrappedArgv (host : Host) (spec : RunSpec) (restrictions : Restrictions) :
    Except RunError (List String) := do
  let prepared := (resolveSandbox spec).prepare spec.command restrictions
  let (argv, _) ← injectBubblewrapSeccomp host spec prepared.argv
  launcherWrap host spec argv

def withoutLauncher (spec : RunSpec) (argv : List String) : Option (List String) :=
  if LauncherArgs.isNeeded spec.resources spec.seccomp (spec.sandbox == .none) then
    match LauncherArgs.parse (argv.drop 2) with
    | .ok args => some args.command
    | .error _ => none
  else some argv

def withoutSandbox (spec : RunSpec) (argv : List String) : List String :=
  if spec.sandbox = .bubblewrap then (argv.dropWhile (· ≠ "--")).tail else argv

/-- The host's descriptor for the filter, if the filter is on. -/
def GivenBy (host : Host) (spec : RunSpec) (fd : Option Nat) : Prop :=
  (fd.isSome ↔ spec.seccomp.isOn) ∧ ∀ number ∈ fd, host.seccompFd = .ok number

variable {flags : List String}

section Separators

variable {restrictions : Restrictions} {path : String}

theorem IsAbsolute.ne_separator (h : IsAbsolute path) : path ≠ "--" := by
  rintro rfl
  exact absurd h (by decide)

theorem toString_ne_separator (n : Nat) : toString n ≠ "--" := by
  intro hText
  have hDigits := congrArg String.toList hText
  rw [Nat.toString_eq_ofList_toDigits, String.toList_ofList] at hDigits
  have hDash : '-' ∈ Nat.toDigits 10 n := by
    rw [hDigits]
    decide
  exact absurd (Nat.isDigit_of_mem_toDigits (by decide) (by decide) hDash) (by decide)

/-- No flag of `bwrap` is a separator. -/
theorem separator_notMem_bubblewrapFlags (hCwd : IsAbsolute restrictions.cwd)
    (hBinds : ∀ path ∈ restrictions.readOnlyPaths ++ restrictions.writablePaths,
      IsAbsolute path) : "--" ∉ bubblewrapFlags restrictions := by
  have hReadOnly : ∀ path ∈ restrictions.readOnlyPaths, path ≠ "--" := fun path hPath =>
    (hBinds path (List.mem_append_left _ hPath)).ne_separator
  have hWritable : ∀ path ∈ restrictions.writablePaths, path ≠ "--" := fun path hPath =>
    (hBinds path (List.mem_append_right _ hPath)).ne_separator
  have hDir := hCwd.ne_separator
  simp only [bubblewrapFlags, List.mem_append, not_or, List.mem_flatMap, not_exists, not_and]
  refine ⟨⟨⟨⟨⟨⟨by decide, ?_⟩, ?_⟩, by decide⟩, ?_⟩, ?_⟩, ?_⟩
  · split <;> decide
  · split <;> decide
  · intro path hPath hMem
    simp only [List.mem_cons, List.not_mem_nil, or_false] at hMem
    rcases hMem with hFlag | hSame | hSame
    · exact absurd hFlag (by decide)
    · exact hReadOnly path hPath hSame.symm
    · exact hReadOnly path hPath hSame.symm
  · intro path hPath hMem
    simp only [List.mem_cons, List.not_mem_nil, or_false] at hMem
    rcases hMem with hFlag | hSame | hSame
    · exact absurd hFlag (by decide)
    · exact hWritable path hPath hSame.symm
    · exact hWritable path hPath hSame.symm
  · intro hMem
    simp only [List.mem_cons, List.not_mem_nil, or_false] at hMem
    rcases hMem with hFlag | hSame
    · exact absurd hFlag (by decide)
    · exact hDir hSame.symm

theorem takeWhile_flags (h : "--" ∉ flags) (argv : List String) :
    (flags ++ "--" :: argv).takeWhile (· ≠ "--") = flags := by
  rw [List.takeWhile_append_of_pos, List.takeWhile_cons_of_neg (by simp), List.append_nil]
  intro flag hFlag
  simpa using ne_of_mem_of_not_mem hFlag h

theorem dropWhile_flags (h : "--" ∉ flags) (argv : List String) :
    (flags ++ "--" :: argv).dropWhile (· ≠ "--") = "--" :: argv := by
  rw [List.dropWhile_append_of_pos, List.dropWhile_cons_of_neg (by simp)]
  intro flag hFlag
  simpa using ne_of_mem_of_not_mem hFlag h

/-- The descriptor of the filter goes to the other flags. -/
theorem bubblewrapWithSeccompFd_flags (h : "--" ∉ flags) (argv : List String) (fd : Nat) :
    bubblewrapWithSeccompFd (flags ++ "--" :: argv) fd =
      (flags ++ ["--seccomp", toString fd]) ++ "--" :: argv := by
  rw [bubblewrapWithSeccompFd, takeWhile_flags h, dropWhile_flags h]

theorem separator_notMem_append_seccomp (h : "--" ∉ flags)
    (fd : Option Nat) : "--" ∉ flags ++ flagWith "--seccomp" (fd.map toString) := by
  cases fd with
  | none => simpa [flagWith] using h
  | some fd =>
    simp only [Option.map_some, flagWith, List.mem_append, List.mem_cons, List.not_mem_nil,
      or_false, not_or]
    exact ⟨h, by decide, (toString_ne_separator fd).symm⟩

end Separators

section Undoing

variable {host : Host} {spec : RunSpec} {restrictions : Restrictions} {argv inner : List String}

/-- The launcher reads back what it is to execute. -/
theorem withoutLauncher_of_launcherWrap (hBackend : spec.sandbox ≠ .container)
    (hInner : inner ≠ []) (hCaps : spec.resources.Fits)
    (h : launcherWrap host spec inner = .ok argv) : withoutLauncher spec argv = some inner := by
  rw [launcherWrap, if_neg hBackend] at h
  rw [withoutLauncher]
  by_cases hNeeded :
      LauncherArgs.isNeeded spec.resources spec.seccomp (spec.sandbox == .none)
  · simp only [hNeeded, Bool.not_true, Bool.false_eq_true, if_false] at h
    rcases hExe : host.currentExe with message | exe
    · simp [hExe] at h
    · simp only [hExe, Except.ok.injEq] at h
      rw [if_pos hNeeded, ← h, List.cons_append, List.cons_append, List.nil_append,
        List.drop_succ_cons, List.drop_succ_cons, List.drop_zero,
        LauncherArgs.parse_toArgs hInner hCaps]
  · simp only [hNeeded, Bool.not_false, if_true, Except.ok.injEq] at h
    rw [if_neg hNeeded, h]

theorem launcherWrap_of_none (hBackend : spec.sandbox = .none)
    (h : wrappedArgv host spec restrictions = .ok argv) :
    launcherWrap host spec spec.command = .ok argv := by
  rw [wrappedArgv] at h
  simp only [resolveSandbox, hBackend, sandboxFor, SandboxImpl.prepare,
    injectBubblewrapSeccomp] at h
  exact h

/-- The filter of the bubblewrap backend is named before the separator. -/
theorem injectBubblewrapSeccomp_flags {command : List String} {fd : Option Nat}
    (hBackend : spec.sandbox = .bubblewrap) (hFlags : "--" ∉ flags)
    (h : injectBubblewrapSeccomp host spec (flags ++ "--" :: command) = .ok (argv, fd)) :
    GivenBy host spec fd ∧
      argv = (flags ++ flagWith "--seccomp" (fd.map toString)) ++ "--" :: command := by
  by_cases hOn : spec.seccomp.isOn
  · rw [injectBubblewrapSeccomp, if_neg (by simp [hBackend, hOn])] at h
    rcases hFd : host.seccompFd with message | number
    · simp [hFd] at h
    · simp only [hFd, Except.ok.injEq, Prod.mk.injEq] at h
      obtain ⟨rfl, rfl⟩ := h
      exact ⟨⟨by simp [hOn], by simpa using hFd⟩,
        bubblewrapWithSeccompFd_flags hFlags command number⟩
  · rw [injectBubblewrapSeccomp, if_pos (by simp [hOn])] at h
    simp only [Except.ok.injEq, Prod.mk.injEq] at h
    obtain ⟨rfl, rfl⟩ := h
    exact ⟨⟨by simp [hOn], by simp⟩, by simp [flagWith]⟩

theorem launcherWrap_of_bubblewrap (hBackend : spec.sandbox = .bubblewrap)
    (hFlags : "--" ∉ bubblewrapFlags restrictions)
    (h : wrappedArgv host spec restrictions = .ok argv) :
    ∃ fd, GivenBy host spec fd ∧
      launcherWrap host spec
        ((bubblewrapFlags restrictions ++ flagWith "--seccomp" (fd.map toString)) ++
          "--" :: spec.command) = .ok argv := by
  obtain ⟨⟨wrapped, fd⟩, hInject, hLauncher⟩ := bind_eq_ok.mp h
  simp only [resolveSandbox, hBackend, sandboxFor, SandboxImpl.prepare, bubblewrapArgv]
    at hInject
  obtain ⟨hFd, rfl⟩ := injectBubblewrapSeccomp_flags hBackend hFlags hInject
  exact ⟨fd, hFd, hLauncher⟩

/-- Wrapping fails only where the host has no descriptor for the filter or lacks the daemon's
path. -/
theorem wrappedArgv_ok {fd : Nat} {exe : String} (hFd : host.seccompFd = .ok fd)
    (hExe : host.currentExe = .ok exe) (restrictions : Restrictions) :
    ∃ argv, wrappedArgv host spec restrictions = .ok argv := by
  have hLauncher : ∀ inner, ∃ argv, launcherWrap host spec inner = .ok argv := by
    intro inner
    simp only [launcherWrap, hExe]
    split
    · exact ⟨_, rfl⟩
    · split <;> exact ⟨_, rfl⟩
  have hInject : ∀ inner, ∃ injected, injectBubblewrapSeccomp host spec inner = .ok injected := by
    intro inner
    simp only [injectBubblewrapSeccomp, hFd]
    split <;> exact ⟨_, rfl⟩
  obtain ⟨⟨wrapped, guard⟩, hWrapped⟩ :=
    hInject ((resolveSandbox spec).prepare spec.command restrictions).argv
  obtain ⟨argv, hArgv⟩ := hLauncher wrapped
  exact ⟨argv, bind_eq_ok.mpr ⟨(wrapped, guard), hWrapped, hArgv⟩⟩

/-- The command that is started is the wrapped one. -/
theorem wrappedArgv_of_buildCommand {command : Command} (hBackend : spec.sandbox ≠ .container)
    (h : buildCommand host spec = .ok command) :
    wrappedArgv host spec
        (restrictionsFor spec (sanitizeEnv host.vars spec.env spec.envAllowlist)) =
      .ok (command.program :: command.args) := by
  rw [buildCommand, ensure_bind_eq_ok, ensure_bind_eq_ok, bind_eq_ok] at h
  obtain ⟨-, -, -, -, h⟩ := h
  obtain ⟨profile, hProfile, h⟩ := bind_eq_ok.mp h
  rw [containerSeccompProfilePath, if_pos (.inl hBackend)] at hProfile
  cases hProfile
  obtain ⟨⟨wrapped, fd⟩, hInject, h⟩ := bind_eq_ok.mp h
  obtain ⟨argv, hLauncher, h⟩ := bind_eq_ok.mp h
  refine bind_eq_ok.mpr ⟨(wrapped, fd), hInject, ?_⟩
  cases argv with
  | nil => cases h
  | cons program args =>
    cases h
    exact hLauncher

/-- The launcher's arguments are read back for every command. A command wrapped for the `none` or
the bubblewrap backend comes back when they are read and, for bubblewrap, everything up to the first
separator is dropped; the flags of `bwrap`, with the filter's descriptor, stand before it. -/
theorem wrapping_keeps_command :
    (∀ args : LauncherArgs, args.command ≠ [] → args.resources.Fits →
      LauncherArgs.parse args.toArgs = .ok args) ∧
    ∀ (host : Host) (spec : RunSpec) (restrictions : Restrictions)
      (env : Std.ExtTreeMap String String) (interactive : Bool),
      restrictions = { restrictionsFor spec env with interactive } →
      spec.command ≠ [] → spec.sandbox ≠ .container → spec.resources.Fits →
      IsAbsolute spec.cwd → (∀ path ∈ spec.readOnlyPaths ++ spec.writablePaths, IsAbsolute path) →
      (∀ fd exe, host.seccompFd = .ok fd → host.currentExe = .ok exe →
        ∃ argv, wrappedArgv host spec restrictions = .ok argv) ∧
      ∀ argv, wrappedArgv host spec restrictions = .ok argv →
        ∃ inner, withoutLauncher spec argv = some inner ∧
          withoutSandbox spec inner = spec.command ∧
          (spec.sandbox = .bubblewrap → ∃ flags fd, GivenBy host spec fd ∧
            flags = bubblewrapFlags restrictions ++ flagWith "--seccomp" (fd.map toString) ∧
            inner = flags ++ "--" :: spec.command ∧ "--" ∉ flags) := by
  refine ⟨fun args => LauncherArgs.parse_toArgs, ?_⟩
  rintro host spec restrictions env interactive rfl hCommand hBackend hCaps hCwd hBinds
  refine ⟨fun fd exe hFd hExe => wrappedArgv_ok hFd hExe _, fun argv hArgv => ?_⟩
  rcases hSandbox : spec.sandbox with _ | _ | _
  · have hInner := withoutLauncher_of_launcherWrap hBackend hCommand hCaps
      (launcherWrap_of_none hSandbox hArgv)
    exact ⟨spec.command, hInner, by simp [withoutSandbox, hSandbox], by simp⟩
  · have hFlags := @separator_notMem_bubblewrapFlags
      { restrictionsFor spec env with interactive } hCwd hBinds
    obtain ⟨fd, hFd, hLauncher⟩ := launcherWrap_of_bubblewrap hSandbox hFlags hArgv
    have hAll := separator_notMem_append_seccomp hFlags fd
    have hInner := withoutLauncher_of_launcherWrap hBackend (by simp) hCaps hLauncher
    refine ⟨_, hInner, ?_, fun _ => ⟨_, fd, hFd, rfl, rfl, hAll⟩⟩
    rw [withoutSandbox, if_pos hSandbox, dropWhile_flags hAll, List.tail_cons]
  · exact absurd hSandbox hBackend

def filteringHost : Host where
  vars := ∅
  isExistingDir _ := true
  pathExists _ := true
  writeSeccompProfile := .error "unavailable"
  seccompFd := .ok 7
  currentExe := .ok "/usr/bin/mx-agent"
  uid := 1000
  gid := 1000

/-- A command with a separator and a launcher flag among its arguments, to be capped and
filtered. -/
def separatorSpec : RunSpec where
  command := ["env", "--", "--nproc"]
  cwd := "/srv/app"
  env := ∅
  envAllowlist := []
  stdin := none
  timeout := none
  gracePeriod := defaultGracePeriod
  sandbox := .bubblewrap
  network := .deny
  readOnlyPaths := ["/usr"]
  writablePaths := ["/srv/app"]
  containerRuntime := .docker
  containerImage := none
  resources := { maxProcesses := some 64, maxMemoryBytes := none, maxCpuSeconds := none }
  seccomp := .default
  runUid := none
  runGid := none

theorem separatorSpec_kept :
    ∃ argv inner, wrappedArgv filteringHost separatorSpec (restrictionsFor separatorSpec ∅) =
        .ok argv ∧
      withoutLauncher separatorSpec argv = some inner ∧
      withoutSandbox separatorSpec inner = ["env", "--", "--nproc"] ∧
      LauncherArgs.parse (LauncherArgs.toArgs ⟨separatorSpec.resources, .off, ["--", "--cpu"]⟩) =
        .ok ⟨separatorSpec.resources, .off, ["--", "--cpu"]⟩ := by
  have hCaps : separatorSpec.resources.Fits := by
    refine ⟨?_, ?_, ?_⟩ <;> simp [separatorSpec]
  obtain ⟨hSome, hUndone⟩ := wrapping_keeps_command.2 filteringHost separatorSpec
    (restrictionsFor separatorSpec ∅) ∅ false rfl (by decide) (by decide) hCaps (by decide)
    (by decide)
  obtain ⟨argv, hArgv⟩ := hSome 7 "/usr/bin/mx-agent" rfl rfl
  obtain ⟨inner, hInner, hCommand, -⟩ := hUndone argv hArgv
  exact ⟨argv, inner, hArgv, hInner, hCommand,
    wrapping_keeps_command.1 ⟨separatorSpec.resources, .off, ["--", "--cpu"]⟩ (by decide) hCaps⟩

end Undoing

end MxAgent.System.WrappedCommands
