import Mathlib.Data.List.Basic

/-! The files of a login in the data directory. Logging in and logging out are sequences of file
operations under one lock. The first one that fails ends its sequence, and so does a crash. The
sync loop stores its token without the lock. -/
namespace MxAgent.Daemon

/-- The stored session, as far as the files depend on it. -/
structure StoredSession where
  homeserver : String
  userId : String
  deviceId : String
  accessToken : String
  refreshToken : Option String
  deriving DecidableEq

def StoredSession.identity (session : StoredSession) : String × String :=
  (session.userId, session.deviceId)

/-- The session file: absent, unreadable, or a session. -/
inductive SessionFile where
  | absent
  | unreadable
  | stored (session : StoredSession)
  deriving DecidableEq

/-- A stored token. Whose sync it comes from is not in the file. -/
structure OwnedToken where
  token : String
  owner : String × String
  deriving DecidableEq

/-- The data directory, with the device stores removed so far. -/
structure DataDir where
  sessionFile : SessionFile
  syncToken : Option OwnedToken
  removedStores : List String
  deriving DecidableEq

/-- One change to the data directory. -/
inductive FileOp where
  | clearSyncToken
  | removeDeviceStore (deviceId : String)
  | removeLegacyStore
  | removeStoreKey
  | removeSessionFile
  | writeSessionFile (session : StoredSession)
  deriving DecidableEq

def FileOp.apply (dir : DataDir) : FileOp → DataDir
  | .clearSyncToken => { dir with syncToken := none }
  | .removeDeviceStore deviceId => { dir with removedStores := deviceId :: dir.removedStores }
  | .removeLegacyStore | .removeStoreKey => dir
  | .removeSessionFile => { dir with sessionFile := .absent }
  | .writeSessionFile session => { dir with sessionFile := .stored session }

/-- `is_plain_path_component`: one name, and no way out. -/
def isPlainPathComponent (name : String) : Bool :=
  name ≠ "" && name ≠ "." && name ≠ ".." && !name.toList.contains '/' &&
    !name.toList.contains '\\' && !name.toList.contains (Char.ofNat 0)

/-- `persist_login_session`, unless the session file cannot be read. -/
def persistLoginSession (session : StoredSession) : SessionFile → List FileOp
  | .unreadable => []
  | .absent => [.clearSyncToken, .writeSessionFile session]
  | .stored prior =>
    (if prior.userId ≠ session.userId ∨ prior.deviceId ≠ session.deviceId then [.clearSyncToken]
      else []) ++
    (if prior.userId = session.userId ∧ prior.deviceId ≠ session.deviceId ∧
        isPlainPathComponent prior.deviceId then [.removeDeviceStore prior.deviceId] else []) ++
    [.writeSessionFile session]

/-- `clear_session`. It goes on without a session that can be read. -/
def clearSession (file : SessionFile) : List FileOp :=
  (match file with
    | .stored session =>
      if isPlainPathComponent session.deviceId then [.removeDeviceStore session.deviceId] else []
    | _ => []) ++
  [.removeLegacyStore, .removeStoreKey, .removeSessionFile, .clearSyncToken]

end MxAgent.Daemon
