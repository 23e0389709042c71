import MxAgent.Daemon.Session
import MxAgent.Foundations.Run

/-! Whose token is stored. A daemon resumes its sync from the stored token as the stored session,
so the token has to be that session's own. Logins and logouts keep it so wherever they are
interrupted, by the order of their operations. -/
namespace MxAgent.System.SessionFiles

open Daemon LabelledRun

/-- The directory, and the operations that the holder of the lock has still to make. -/
structure State where
  dir : DataDir
  pending : List FileOp
  deriving DecidableEq

inductive Label where
  | login (session : StoredSession)
  | logout
  /-- The next operation succeeds. -/
  | operate
  /-- It fails, or the process ends. -/
  | abort
  | saveToken (token : OwnedToken)

def step (s : State) : Label → State
  | .login session =>
    if s.pending = [] then { s with pending := persistLoginSession session s.dir.sessionFile }
    else s
  | .logout =>
    if s.pending = [] then { s with pending := clearSession s.dir.sessionFile } else s
  | .operate =>
    match s.pending with
    | [] => s
    | op :: rest => ⟨op.apply s.dir, rest⟩
  | .abort => { s with pending := [] }
  | .saveToken token => { s with dir := { s.dir with syncToken := some token } }

/-- A token is stored for the stored session and one about to be stored: its daemon was started from
that session. -/
def SavesOwn (s : State) : Label → Prop
  | .saveToken token =>
    (∀ session, s.dir.sessionFile = .stored session → token.owner = session.identity) ∧
      ∀ session, .writeSessionFile session ∈ s.pending → token.owner = session.identity
  | _ => True

def Owned (dir : DataDir) : Prop :=
  ∀ session token, dir.sessionFile = .stored session → dir.syncToken = some token →
    token.owner = session.identity

/-- What is pending writes no session over another's token, and removes only entries of the data
directory. -/
def Ready : Option OwnedToken → List FileOp → Prop
  | _, [] => True
  | _, .clearSyncToken :: rest => Ready none rest
  | token, .writeSessionFile session :: rest =>
    (∀ stored ∈ token, stored.owner = session.identity) ∧ Ready token rest
  | token, .removeDeviceStore deviceId :: rest =>
    isPlainPathComponent deviceId ∧ Ready token rest
  | token, _ :: rest => Ready token rest

structure Consistent (s : State) : Prop where
  owned : Owned s.dir
  ready : Ready s.dir.syncToken s.pending
  plain : ∀ deviceId ∈ s.dir.removedStores, isPlainPathComponent deviceId

theorem Ready.replace {pending : List FileOp} {old new : Option OwnedToken}
    (h : Ready old pending)
    (hNew : ∀ session, .writeSessionFile session ∈ pending →
      ∀ token ∈ new, token.owner = session.identity) : Ready new pending := by
  induction pending generalizing old new with
  | nil => trivial
  | cons op rest ih =>
    have hRest (session : StoredSession) (hMem : .writeSessionFile session ∈ rest) :=
      hNew session (List.mem_cons_of_mem _ hMem)
    cases op with
    | clearSyncToken => exact h
    | removeDeviceStore deviceId => exact ⟨h.1, ih h.2 hRest⟩
    | removeLegacyStore | removeStoreKey | removeSessionFile => exact ih h hRest
    | writeSessionFile session => exact ⟨hNew session (List.mem_cons_self ..), ih h.2 hRest⟩

/-- A login first clears the token of another identity. -/
theorem ready_login {dir : DataDir} (hOwned : Owned dir) (session : StoredSession) :
    Ready dir.syncToken (persistLoginSession session dir.sessionFile) := by
  cases hFile : dir.sessionFile with
  | unreadable => trivial
  | absent => exact ⟨by simp, trivial⟩
  | stored prior =>
    by_cases hUser : prior.userId = session.userId
    · by_cases hDevice : prior.deviceId = session.deviceId
      · simp only [persistLoginSession, hUser, hDevice, ne_eq, not_true_eq_false, or_self, if_false,
          false_and, and_false, List.nil_append]
        refine ⟨fun token hToken => ?_, trivial⟩
        rw [hOwned prior token hFile hToken, StoredSession.identity, hUser, hDevice,
          StoredSession.identity]
      · by_cases hPlain : isPlainPathComponent prior.deviceId
        · simp [persistLoginSession, hUser, hDevice, hPlain, Ready]
        · simp [persistLoginSession, hUser, hDevice, hPlain, Ready]
    · simp [persistLoginSession, hUser, Ready]

theorem ready_logout (token : Option OwnedToken) (file : SessionFile) :
    Ready token (clearSession file) := by
  cases file with
  | absent | unreadable => trivial
  | stored session =>
    by_cases hPlain : isPlainPathComponent session.deviceId
    · simp [clearSession, hPlain, Ready]
    · simp [clearSession, hPlain, Ready]

theorem consistent_operate {dir : DataDir} {op : FileOp} {rest : List FileOp}
    (h : Consistent ⟨dir, op :: rest⟩) : Consistent ⟨op.apply dir, rest⟩ := by
  obtain ⟨hOwned, hReady, hPlain⟩ := h
  cases op with
  | clearSyncToken =>
    exact ⟨fun _ _ _ hToken => absurd hToken (by simp [FileOp.apply]), hReady, hPlain⟩
  | removeDeviceStore deviceId =>
    exact ⟨hOwned, hReady.2, List.forall_mem_cons.mpr ⟨hReady.1, hPlain⟩⟩
  | removeLegacyStore | removeStoreKey => exact ⟨hOwned, hReady, hPlain⟩
  | removeSessionFile =>
    exact ⟨fun _ _ hFile => absurd hFile (by simp [FileOp.apply]), hReady, hPlain⟩
  | writeSessionFile session =>
    refine ⟨fun other token hFile hToken => ?_, hReady.2, hPlain⟩
    cases hFile
    exact hReady.1 token hToken

theorem consistent_step (s : State) (label : Label) (hOwn : SavesOwn s label)
    (h : Consistent s) : Consistent (step s label) := by
  cases label with
  | login session =>
    simp only [step]
    split
    · exact ⟨h.owned, ready_login h.owned session, h.plain⟩
    · exact h
  | logout =>
    simp only [step]
    split
    · exact ⟨h.owned, ready_logout _ _, h.plain⟩
    · exact h
  | operate =>
    obtain ⟨dir, pending⟩ := s
    cases pending with
    | nil => exact h
    | cons op rest => exact consistent_operate h
  | abort => exact ⟨h.owned, trivial, h.plain⟩
  | saveToken token =>
    refine ⟨fun session stored hFile hStored => ?_,
      h.ready.replace fun session hMem stored hStored => ?_, h.plain⟩
    · cases hStored
      exact hOwn.1 session hFile
    · cases hStored
      exact hOwn.2 session hMem

def fresh : State := ⟨⟨.absent, none, []⟩, []⟩

def sessionOf (deviceId : String) : StoredSession :=
  ⟨"https://example.org", "@builder:example.org", deviceId, "secret", none⟩

/-- A second login, cut off after the token is cleared, and made again. -/
def relogin : List Label :=
  [.login (sessionOf "A"), .operate, .operate,
    .saveToken ⟨"s1", "@builder:example.org", "A"⟩, .login (sessionOf "B"), .operate, .abort,
    .login (sessionOf "B"), .operate, .operate, .operate,
    .saveToken ⟨"t1", "@builder:example.org", "B"⟩]

end MxAgent.System.SessionFiles
