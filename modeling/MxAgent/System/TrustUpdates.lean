import MxAgent.Foundations.Run
import MxAgent.Daemon.Trust

/-! Changes of `trust.json` by operators and by registrations. An operator's change is one
step under the write lock. A registration loads the file, and saves what it has made of
it later, without the lock. -/
namespace MxAgent.System.TrustUpdates

open Daemon LabelledRun Std

inductive Change where
  | approve (agentId keyId : String) (approval : Approval)
  | revoke (agentId keyId : String)

def Change.apply (now : Nat) : Change → TrustRecords → TrustRecords
  | .approve agentId keyId approval, trust => trust.approve agentId keyId approval now
  | .revoke agentId keyId, trust => trust.revoke agentId keyId now

structure Seeding where
  registration : Registration
  now : Nat
  loaded : TrustRecords
  copy : TrustRecords
  seeded : seedLocalKeyTrust loaded registration now = some copy

def Seeding.begin (registration : Registration) (now : Nat) (loaded : TrustRecords) :
    Option Seeding :=
  match h : seedLocalKeyTrust loaded registration now with
  | none => none
  | some copy => some ⟨registration, now, loaded, copy, h⟩

structure State where
  file : TrustFile
  seedings : ExtTreeMap Nat Seeding

inductive Label where
  | update (change : Change) (now : Nat) (read write : IoResult)
  | load (slot : Nat) (registration : Registration) (now : Nat) (read : IoResult)
  | save (slot : Nat) (write : IoResult)

def step (s : State) : Label → State
  | .update change now read write =>
    { s with file := s.file.update (change.apply now) read write }
  | .load slot registration now read =>
    match Seeding.begin registration now (s.file.loadOrDefault read) with
    | none => s
    | some seeding => { s with seedings := s.seedings.insert slot seeding }
  | .save slot write =>
    match s.seedings[slot]? with
    | none => s
    | some seeding => ⟨s.file.save seeding.copy write, s.seedings.erase slot⟩

def start (file : TrustFile) : State := ⟨file, ∅⟩

def approved : Label → Option (String × String)
  | .update (.approve agentId keyId _) _ (.ok ()) (.ok ()) => some (agentId, keyId)
  | _ => none

def AnyTime (_ : State) (_ : Label) : Prop := True

/-- What a registration has loaded is still what the file has when it saves. -/
def CopyCurrent (s : State) : Label → Prop
  | .save slot _ => ∀ seeding ∈ s.seedings[slot]?, seeding.loaded = s.file.records
  | _ => True

instance (s : State) (label : Label) : Decidable (CopyCurrent s label) :=
  match label with
  | .save _ _ => inferInstanceAs (Decidable (∀ seeding ∈ _, _))
  | .update .. | .load .. => inferInstanceAs (Decidable True)

/-- A revocation that finds a record in `s` holds along every run until an operator approves the
pair again. -/
def KeepsRevocations (guard : State → Label → Prop) (s : State) : Prop :=
  ∀ agentId keyId now labels finish, (s.file.records.entry agentId keyId).isSome →
    Run guard step (step s (.update (.revoke agentId keyId) now (.ok ()) (.ok ()))) labels finish →
    (∀ label ∈ labels, approved label ≠ some (agentId, keyId)) →
    finish.file.records.isRevoked agentId keyId

/-- The save of a registration touches no record but that of its own pair. -/
def ConfinesSaves (guard : State → Label → Prop) (s : State) : Prop :=
  ∀ slot write agentId keyId, guard s (.save slot write) →
    (∀ seeding ∈ s.seedings[slot]?,
      (agentId, keyId) ≠ (seeding.registration.agentId, seeding.registration.keyId)) →
    (step s (.save slot write)).file.records.entry agentId keyId =
      s.file.records.entry agentId keyId

/-- A registration approves its pair, neither trusted nor revoked. -/
theorem Seeding.copy_eq (seeding : Seeding) :
    seeding.loaded.isRevoked seeding.registration.agentId seeding.registration.keyId = false ∧
      ∃ approval, seeding.copy = seeding.loaded.approve seeding.registration.agentId
        seeding.registration.keyId approval seeding.now := by
  have hSeeded := seeding.seeded
  unfold seedLocalKeyTrust at hSeeded
  split at hSeeded
  · cases hSeeded
  rename_i hRevoked
  split at hSeeded
  · cases hSeeded
  exact ⟨by simpa using hRevoked, _, (Option.some.inj hSeeded).symm⟩

variable {agentId keyId : String}

theorem entry_copy (seeding : Seeding)
    (hOther : (agentId, keyId) ≠ (seeding.registration.agentId, seeding.registration.keyId)) :
    seeding.copy.entry agentId keyId = seeding.loaded.entry agentId keyId := by
  obtain ⟨-, approval, hCopy⟩ := seeding.copy_eq
  rw [hCopy]
  exact TrustRecords.entry_approve_other hOther

theorem step_save_cases (s : State) (slot : Nat) (write : IoResult) :
    (step s (.save slot write)).file = s.file ∨
      ∃ seeding, s.seedings[slot]? = some seeding ∧
        (step s (.save slot write)).file.records = seeding.copy := by
  simp only [step]
  cases hSeeding : s.seedings[slot]? with
  | none => exact .inl rfl
  | some seeding =>
    cases write with
    | error kind => exact .inl rfl
    | ok done => exact .inr ⟨seeding, rfl, rfl⟩

theorem confinesSaves (s : State) : ConfinesSaves CopyCurrent s := by
  intro slot write agentId keyId hCurrent hOther
  rcases step_save_cases s slot write with hFile | ⟨seeding, hSeeding, hRecords⟩
  · rw [hFile]
  · rw [hRecords, entry_copy seeding (hOther seeding hSeeding), hCurrent seeding hSeeding]

/-- A revoked pair stays revoked in every step but an operator's approval. -/
theorem isRevoked_step (s : State) (label : Label)
    (hGuard : CopyCurrent s label ∧ approved label ≠ some (agentId, keyId))
    (h : s.file.records.isRevoked agentId keyId) :
    (step s label).file.records.isRevoked agentId keyId := by
  obtain ⟨hCurrent, hApproved⟩ := hGuard
  cases label with
  | load slot registration now read =>
    simp only [step]
    split <;> exact h
  | save slot write =>
    by_cases hOwn : ∃ seeding ∈ s.seedings[slot]?,
        (agentId, keyId) = (seeding.registration.agentId, seeding.registration.keyId)
    · -- A registration has nothing to save for a pair it has found revoked.
      obtain ⟨seeding, hSeeding, hPair⟩ := hOwn
      obtain ⟨rfl, rfl⟩ := Prod.mk.inj hPair
      have hNotRevoked := seeding.copy_eq.1
      rw [hCurrent seeding hSeeding, h] at hNotRevoked
      cases hNotRevoked
    · have hEntry := confinesSaves s slot write agentId keyId hCurrent
        fun seeding hSeeding hPair => hOwn ⟨seeding, hSeeding, hPair⟩
      rw [TrustRecords.isRevoked, hEntry]
      exact h
  | update change now read write =>
    rcases TrustFile.update_cases s.file (change.apply now) read write with
      hSame | ⟨rfl, rfl, hRecords⟩
    · simp only [step, hSame]
      exact h
    · simp only [step, hRecords]
      cases change with
      | revoke otherAgent otherKey => exact TrustRecords.isRevoked_revoke_other h
      | approve otherAgent otherKey approval =>
        have hOther : (agentId, keyId) ≠ (otherAgent, otherKey) := by
          rintro hPair
          exact hApproved (congrArg some hPair.symm)
        rw [Change.apply, TrustRecords.isRevoked, TrustRecords.entry_approve_other hOther]
        exact h

theorem isRevoked_of_revoke {s : State} {now : Nat}
    (h : (s.file.records.entry agentId keyId).isSome) :
    (step s (.update (.revoke agentId keyId) now (.ok ()) (.ok ()))).file.records.isRevoked
      agentId keyId := by
  obtain ⟨file, seedings⟩ := s
  cases file with
  | absent => cases h
  | corrupt => cases h
  | stored trust =>
    change (trust.revoke agentId keyId now).isRevoked agentId keyId
    rw [TrustRecords.isRevoked_revoke]
    exact h

/-- If from some state on every registration saves while the file has what it loaded, a revocation
is undone only by an operator, and a registration touches only its own pair. -/
theorem revocations_kept (s : State) :
    KeepsRevocations CopyCurrent s ∧ ConfinesSaves CopyCurrent s := by
  refine ⟨?_, confinesSaves s⟩
  intro agentId keyId now labels finish hFound hRun hApproved
  have hFinish : (fun s : State => s.file.records.isRevoked agentId keyId) finish :=
    (hRun.restrict hApproved).invariant (isRevoked_of_revoke hFound) isRevoked_step
  exact hFinish

section LostRevocation

def leadTrusted : TrustFile :=
  .stored (TrustRecords.default.approve "agent-lead" "mxagent-ed25519:lead"
    ⟨none, none, none⟩ 1780400000)

def daemonRegisters : Registration :=
  ⟨"agent-daemon", "mxagent-ed25519:daemon", "SHA256:daemon", "!lab:example.org",
    "@daemon:example.org"⟩

def leadRevoked : Label :=
  .update (.revoke "agent-lead" "mxagent-ed25519:lead") 1780401000 (.ok ()) (.ok ())

def registers (read : IoResult) : List Label :=
  [.load 0 daemonRegisters 1780402000 read, .save 0 (.ok ())]

/-- A registration after the revocation, not interrupted. -/
theorem revocations_kept_in_turn :
    ((registers (.ok ())).foldl step (step (start leadTrusted) leadRevoked)).file.records.isTrusted
        "agent-daemon" "mxagent-ed25519:daemon" ∧
      ((registers (.ok ())).foldl step
        (step (start leadTrusted) leadRevoked)).file.records.isRevoked
          "agent-lead" "mxagent-ed25519:lead" := by
  refine ⟨by decide +kernel, ?_⟩
  have hRun : Allowed CopyCurrent step (step (start leadTrusted) leadRevoked)
      (registers (.ok ())) := by
    decide +kernel
  exact (revocations_kept (start leadTrusted)).1 _ _ _ _ _ (by decide +kernel) hRun.run
    (by simp [registers, approved])

/-- The registration has loaded the file when the lead's key is revoked, and saves its copy after:
the key is trusted again. -/
theorem revocation_lost :
    ¬ ∀ (file : TrustFile) (labels : List Label) (s : State),
        Run AnyTime step (start file) labels s →
        KeepsRevocations AnyTime s ∧ ConfinesSaves AnyTime s := by
  intro hClaim
  have hLoaded : Run AnyTime step (start leadTrusted) _ _ :=
    Allowed.run (show Allowed AnyTime step (start leadTrusted)
      [.load 0 daemonRegisters 1780400500 (.ok ())] from ⟨trivial, trivial⟩)
  have hRevoked := (hClaim _ _ _ hLoaded).1 "agent-lead" "mxagent-ed25519:lead" 1780401000
    [.save 0 (.ok ())] _ (by decide +kernel) (Allowed.run ⟨trivial, trivial⟩)
    (by simp [approved])
  revert hRevoked
  decide +kernel

/-- With a failed load the registration replaces the whole file by its own record. -/
example :
    ((registers (.error .other)).foldl step (start leadTrusted)).file.records.entry
      "agent-lead" "mxagent-ed25519:lead" = none := by
  decide +kernel

end LostRevocation

end MxAgent.System.TrustUpdates
