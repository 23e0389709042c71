import Mathlib.Data.List.Basic
import MxAgent.Daemon.Identity
import MxAgent.Daemon.Replay

/-! The trust store as it is kept in `trust.json`: its records, the two changes an
operator makes, and the key that a daemon seeds for itself when it registers an agent. -/
namespace MxAgent.Daemon

/-- A record of the trust store with its history. -/
structure TrustRecord extends TrustEntry where
  fingerprint : String
  room : Option String
  trustedBy : Option String
  createdAt : Nat
  revokedAt : Option Nat
  deriving DecidableEq, Repr

structure TrustRecords where
  entries : List TrustRecord
  deriving DecidableEq, Repr

def keyIdPrefix : String := "mxagent-ed25519"

/-- `fingerprint_from_key_id`: the digest of the key id under another name. -/
def fingerprintFromKeyId (keyId : String) : Option String := do
  let afterName ← keyId.toList.dropPrefix? keyIdPrefix.toList
  let digest ← afterName.dropPrefix? [':']
  if digest.isEmpty then none else some ("SHA256:" ++ String.ofList digest)

structure Approval where
  fingerprint : Option String
  room : Option String
  trustedBy : Option String
  deriving DecidableEq, Repr

namespace TrustRecord

def names (agentId keyId : String) (entry : TrustRecord) : Bool :=
  entry.agentId == agentId && entry.keyId == keyId

/-- An approval of a pair that has a record. -/
def refresh (approval : Approval) (entry : TrustRecord) : TrustRecord :=
  { entry with
    fingerprint := (approval.fingerprint.or (fingerprintFromKeyId entry.keyId)).getD ""
    status := .trusted
    revokedAt := none
    room := approval.room.or entry.room
    trustedBy := approval.trustedBy.or entry.trustedBy }

def fresh (agentId keyId : String) (approval : Approval) (now : Nat) : TrustRecord where
  agentId
  keyId
  fingerprint := (approval.fingerprint.or (fingerprintFromKeyId keyId)).getD ""
  status := .trusted
  room := approval.room
  trustedBy := approval.trustedBy
  createdAt := now
  revokedAt := none

def revoke (now : Nat) (entry : TrustRecord) : TrustRecord :=
  { entry with
    status := .revoked
    revokedAt := some now }

end TrustRecord

namespace TrustRecords

def default : TrustRecords := ⟨[]⟩

def toStore (trust : TrustRecords) : TrustStore := ⟨trust.entries.map TrustRecord.toTrustEntry⟩

def entry (trust : TrustRecords) (agentId keyId : String) : Option TrustRecord :=
  trust.entries.find? (TrustRecord.names agentId keyId)

def modify (trust : TrustRecords) (agentId keyId : String) (change : TrustRecord → TrustRecord) :
    TrustRecords :=
  ⟨trust.entries.replaceF fun entry =>
    if entry.names agentId keyId then some (change entry) else none⟩

/-- `approve`: renew the pair's record or add one. -/
def approve (trust : TrustRecords) (agentId keyId : String) (approval : Approval) (now : Nat) :
    TrustRecords :=
  match trust.entry agentId keyId with
  | some _ => trust.modify agentId keyId (TrustRecord.refresh approval)
  | none => ⟨trust.entries ++ [TrustRecord.fresh agentId keyId approval now]⟩

/-- `revoke`: a pair without a record stays without one. -/
def revoke (trust : TrustRecords) (agentId keyId : String) (now : Nat) : TrustRecords :=
  trust.modify agentId keyId (TrustRecord.revoke now)

/-- `is_trusted`: the pair has a trusted record. -/
def isTrusted (trust : TrustRecords) (agentId keyId : String) : Bool :=
  (trust.entry agentId keyId).any fun entry => entry.status == .trusted

/-- The pair has a revoked record. -/
def isRevoked (trust : TrustRecords) (agentId keyId : String) : Bool :=
  (trust.entry agentId keyId).any fun entry => entry.status == .revoked

end TrustRecords

variable {approval : Approval} {now : Nat}

namespace TrustRecords

variable {trust : TrustRecords} {agentId keyId otherAgent otherKey : String}
  {change : TrustRecord → TrustRecord}

theorem names_of_names {entry : TrustRecord} (h : entry.names agentId keyId)
    (hOther : (otherAgent, otherKey) ≠ (agentId, keyId)) :
    entry.names otherAgent otherKey = false := by
  simp only [TrustRecord.names, Bool.and_eq_true, beq_iff_eq] at h
  obtain ⟨rfl, rfl⟩ := h
  rw [TrustRecord.names, Bool.eq_false_iff]
  intro hNames
  simp only [Bool.and_eq_true, beq_iff_eq] at hNames
  exact hOther (Prod.ext hNames.1.symm hNames.2.symm)

/-- The change of a record leaves its pair alone. -/
def KeepsPair (change : TrustRecord → TrustRecord) : Prop :=
  ∀ entry agentId keyId, (change entry).names agentId keyId = entry.names agentId keyId

theorem keepsPair_refresh (approval : Approval) : KeepsPair (TrustRecord.refresh approval) :=
  fun _ _ _ => rfl

theorem keepsPair_revoke (now : Nat) : KeepsPair (TrustRecord.revoke now) := fun _ _ _ => rfl

theorem entry_modify (hKeeps : KeepsPair change) :
    (trust.modify agentId keyId change).entry agentId keyId =
      (trust.entry agentId keyId).map change := by
  obtain ⟨entries⟩ := trust
  simp only [modify, entry]
  induction entries with
  | nil => rfl
  | cons head rest ih =>
    cases hHead : head.names agentId keyId with
    | true =>
      have hChanged : (change head).names agentId keyId := by rw [hKeeps, hHead]
      simp [List.find?, hHead, hChanged]
    | false => simpa [List.find?, hHead] using ih

theorem entry_modify_other (hKeeps : KeepsPair change)
    (hOther : (otherAgent, otherKey) ≠ (agentId, keyId)) :
    (trust.modify agentId keyId change).entry otherAgent otherKey =
      trust.entry otherAgent otherKey := by
  obtain ⟨entries⟩ := trust
  simp only [modify, entry]
  induction entries with
  | nil => rfl
  | cons head rest ih =>
    cases hHead : head.names agentId keyId with
    | true =>
      have hForeign := names_of_names hHead hOther
      have hChanged : (change head).names otherAgent otherKey = false := by
        rw [hKeeps, hForeign]
      simp [List.find?, hHead, hChanged, hForeign]
    | false =>
      simp only [List.replaceF, hHead, Bool.false_eq_true, if_false, List.find?_cons, ih]

theorem entry_approve_other (hOther : (otherAgent, otherKey) ≠ (agentId, keyId)) :
    (trust.approve agentId keyId approval now).entry otherAgent otherKey =
      trust.entry otherAgent otherKey := by
  unfold approve
  split
  · exact entry_modify_other (keepsPair_refresh approval) hOther
  · have hNames : (TrustRecord.fresh agentId keyId approval now).names agentId keyId := by
      simp [TrustRecord.names, TrustRecord.fresh]
    simp [entry, List.find?_append, names_of_names hNames hOther]

theorem isTrusted_approve : (trust.approve agentId keyId approval now).isTrusted agentId keyId := by
  unfold approve isTrusted
  split
  · rename_i record hEntry
    rw [entry_modify (keepsPair_refresh approval), hEntry]
    rfl
  · rename_i hNone
    have hNone' : trust.entries.find? (TrustRecord.names agentId keyId) = none := hNone
    simp [entry, List.find?_append, hNone', TrustRecord.names, TrustRecord.fresh]

/-- A key that is trusted for an agent is one that authorization trusts. -/
theorem isKeyTrusted_of_isTrusted (h : trust.isTrusted agentId keyId) :
    trust.toStore.isKeyTrusted keyId := by
  rw [isTrusted, Option.any_eq_true] at h
  obtain ⟨record, hEntry, hStatus⟩ := h
  have hNames : record.names agentId keyId := List.find?_some hEntry
  rw [TrustRecord.names, Bool.and_eq_true] at hNames
  rw [TrustStore.isKeyTrusted, toStore, List.any_map, List.any_eq_true]
  refine ⟨record, List.mem_of_find?_eq_some hEntry, ?_⟩
  rw [Function.comp_apply, hNames.2, hStatus]
  rfl

/-- Each pair has one record at most. -/
def Distinct (trust : TrustRecords) : Prop :=
  (trust.entries.map fun entry => (entry.agentId, entry.keyId)).Nodup

theorem distinct_default : Distinct default := List.nodup_nil

theorem pairs_modify (hKeeps : ∀ entry, (change entry).agentId = entry.agentId ∧
      (change entry).keyId = entry.keyId) :
    (trust.modify agentId keyId change).entries.map (fun entry => (entry.agentId, entry.keyId)) =
      trust.entries.map fun entry => (entry.agentId, entry.keyId) := by
  obtain ⟨entries⟩ := trust
  simp only [modify]
  induction entries with
  | nil => rfl
  | cons head rest ih =>
    cases hHead : head.names agentId keyId with
    | true => simp [List.replaceF, hHead, hKeeps head]
    | false => simpa [List.replaceF, hHead] using ih

theorem Distinct.revoke (h : trust.Distinct) (now : Nat) :
    (trust.revoke agentId keyId now).Distinct := by
  have hPairs : (trust.revoke agentId keyId now).entries.map (fun entry =>
      (entry.agentId, entry.keyId)) = _ := pairs_modify fun _ => ⟨rfl, rfl⟩
  rw [Distinct, hPairs]
  exact h

theorem Distinct.approve (h : trust.Distinct) (approval : Approval) (now : Nat) :
    (trust.approve agentId keyId approval now).Distinct := by
  unfold TrustRecords.approve
  split
  · have hPairs : (trust.modify agentId keyId (TrustRecord.refresh approval)).entries.map
        (fun entry => (entry.agentId, entry.keyId)) = _ := pairs_modify fun _ => ⟨rfl, rfl⟩
    rw [Distinct, hPairs]
    exact h
  · rename_i hNone
    rw [Distinct, List.map_append, List.nodup_append]
    refine ⟨h, List.nodup_singleton _, ?_⟩
    intro pair hPair other hOther hSame
    obtain ⟨entry, hEntry, rfl⟩ := List.mem_map.mp hPair
    rw [List.map_singleton, List.mem_singleton] at hOther
    rw [hOther] at hSame
    have hNames : entry.names agentId keyId = false := by
      simpa using List.find?_eq_none.mp hNone entry hEntry
    simp [TrustRecord.names, TrustRecord.fresh] at hNames hSame
    exact hNames hSame.1 hSame.2

/-- Where each pair has one record, a trusted key is trusted for an agent. -/
theorem Distinct.isKeyTrusted_iff (h : trust.Distinct) :
    trust.toStore.isKeyTrusted keyId ↔ ∃ agentId, trust.isTrusted agentId keyId := by
  refine ⟨fun hKey => ?_, fun ⟨_, hTrusted⟩ => isKeyTrusted_of_isTrusted hTrusted⟩
  rw [TrustStore.isKeyTrusted, toStore, List.any_map, List.any_eq_true] at hKey
  obtain ⟨record, hMem, hRecord⟩ := hKey
  obtain ⟨hId, hStatus⟩ : record.keyId = keyId ∧ record.status = .trusted := by
    simpa using hRecord
  have hNames : record.names record.agentId keyId := by simp [TrustRecord.names, hId]
  obtain ⟨found, hFound⟩ : ∃ found, trust.entry record.agentId keyId = some found := by
    rw [← Option.isSome_iff_exists, entry, List.find?_isSome]
    exact ⟨record, hMem, hNames⟩
  have hFoundNames : found.names record.agentId keyId := List.find?_some hFound
  have hSame : found = record := by
    refine List.inj_on_of_nodup_map h (List.mem_of_find?_eq_some hFound) hMem ?_
    simp only [TrustRecord.names, Bool.and_eq_true, beq_iff_eq] at hFoundNames
    simp [hFoundNames.1, hFoundNames.2, hId]
  exact ⟨record.agentId, by rw [isTrusted, hFound, hSame]; simp [hStatus]⟩

theorem isRevoked_revoke :
    (trust.revoke agentId keyId now).isRevoked agentId keyId =
      (trust.entry agentId keyId).isSome := by
  rw [isRevoked, revoke, entry_modify (keepsPair_revoke now)]
  cases trust.entry agentId keyId <;> rfl

/-- A revoked pair stays revoked, whatever else is revoked. -/
theorem isRevoked_revoke_other (h : trust.isRevoked agentId keyId) :
    (trust.revoke otherAgent otherKey now).isRevoked agentId keyId := by
  by_cases hSame : (agentId, keyId) = (otherAgent, otherKey)
  · obtain ⟨rfl, rfl⟩ := Prod.mk.inj hSame
    rw [isRevoked_revoke]
    unfold isRevoked at h
    cases hEntry : trust.entry agentId keyId <;> simp_all
  · rw [isRevoked, revoke, entry_modify_other (keepsPair_revoke now) hSame]
    exact h

end TrustRecords

/-! ## Trust that a room publishes -/

/-- A published `com.mxagent.trust.v1` state, with what is read of it. -/
structure TrustState where
  agentId : String
  keyId : String
  status : String
  revokedAt : Option String
  deriving DecidableEq, Repr

inductive TrustSource where
  | localStore | room | none
  deriving DecidableEq, Repr

structure EffectiveTrust where
  agentId : String
  keyId : String
  trusted : Bool
  source : TrustSource
  deriving DecidableEq, Repr

def roomStateGrantsTrust (state : TrustState) : Bool :=
  state.status == "trusted" && state.revokedAt.isNone

/-- `effective_trust`: the local record, or else the room. -/
def effectiveTrust (trust : TrustRecords) (roomStates : List TrustState)
    (agentId keyId : String) : EffectiveTrust :=
  match trust.entry agentId keyId with
  | some entry => ⟨agentId, keyId, entry.status == .trusted, .localStore⟩
  | none =>
    let roomTrusted := (roomStates.filter fun state =>
      state.agentId == agentId && state.keyId == keyId).any roomStateGrantsTrust
    ⟨agentId, keyId, roomTrusted, if roomTrusted then .room else .none⟩

/-- What an agent is registered with. -/
structure Registration where
  agentId : String
  keyId : String
  fingerprint : String
  room : String
  trustedBy : String
  deriving DecidableEq, Repr

/-- `seed_local_key_trust`: a trusted or revoked pair is not saved. -/
def seedLocalKeyTrust (trust : TrustRecords) (registration : Registration) (now : Nat) :
    Option TrustRecords :=
  if trust.isRevoked registration.agentId registration.keyId then none
  else if trust.isTrusted registration.agentId registration.keyId then none
  else some (trust.approve registration.agentId registration.keyId
    ⟨some registration.fingerprint, some registration.room, some registration.trustedBy⟩ now)

inductive TrustFile where
  | absent
  | corrupt
  | stored (trust : TrustRecords)
  deriving DecidableEq, Repr

namespace TrustFile

def load (file : TrustFile) (read : IoResult) : Except IoErrorKind TrustRecords :=
  match read with
  | .error kind => .error kind
  | .ok () =>
    match file with
    | .absent => .ok .default
    | .corrupt => .error .other
    | .stored trust => .ok trust

def loadOrDefault (file : TrustFile) (read : IoResult) : TrustRecords :=
  match file.load read with
  | .ok trust => trust
  | .error _ => .default

def save (file : TrustFile) (trust : TrustRecords) (write : IoResult) : TrustFile :=
  match write with
  | .ok () => .stored trust
  | .error _ => file

def records : TrustFile → TrustRecords
  | .stored trust => trust
  | _ => .default

/-- `update_trust_store`, which holds the write lock from the load to the save. -/
def update (file : TrustFile) (change : TrustRecords → TrustRecords) (read write : IoResult) :
    TrustFile :=
  match file.load read with
  | .error _ => file
  | .ok trust => file.save (change trust) write

/-- An update changes the records of the file, or leaves it alone. -/
theorem update_cases (file : TrustFile) (change : TrustRecords → TrustRecords)
    (read write : IoResult) :
    file.update change read write = file ∨
      read = .ok () ∧ write = .ok () ∧
        (file.update change read write).records = change file.records := by
  unfold update
  match read, write, file with
  | .error _, _, _ => exact .inl rfl
  | .ok (), .error _, .absent | .ok (), .error _, .corrupt | .ok (), .error _, .stored _ =>
    exact .inl rfl
  | .ok (), .ok (), .corrupt => exact .inl rfl
  | .ok (), .ok (), .absent | .ok (), .ok (), .stored _ => exact .inr ⟨rfl, rfl, rfl⟩

end TrustFile

end MxAgent.Daemon
