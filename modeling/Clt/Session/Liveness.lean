import Clt.Registry.WorkersLeases

/-!
# Holders and their processes

The holder of a lease or of a reservation is a text that begins with what it is for and carries
the number of its process. What the system says of that process decides whether a lease can be
taken back (`agent_lease_is_reclaimable`), and whether somebody still waits for a reservation.
-/

namespace Clt

open Relational

/-! ## Texts -/

/-- `str::strip_prefix`. -/
def stripHolderPrefix (s pre : String) : Option (List Char) :=
  if startsWith s pre then some (s.toList.drop pre.toList.length) else none

/-- `str::parse` of an unsigned number with so many bits. -/
def parseUnsigned (bits : Nat) (text : List Char) : Option Nat :=
  let digits := if text.head? = some '+' then text.tail else text
  if digits ≠ [] ∧ digits.all Char.isDigit ∧ digitsValue digits < 2 ^ bits then
    some (digitsValue digits)
  else none

/-- The number up to the next dash. -/
def leadingPid (text : List Char) : Option Nat :=
  parseUnsigned 32 (text.takeWhile fun c => c ≠ '-')

/-- Two prefixes of one text are prefixes of each other. -/
theorem prefix_of_startsWith {s a b : String} (ha : startsWith s a = true)
    (hb : startsWith s b = true) : a.toList <+: b.toList ∨ b.toList <+: a.toList :=
  List.prefix_or_prefix_of_prefix (List.isPrefixOf_iff_prefix.mp ha)
    (List.isPrefixOf_iff_prefix.mp hb)

/-! ## Holders -/

/-- `recovered_supervisor_pid`. -/
def recoveredSupervisorPid (holder : String) : Option Nat :=
  (stripHolderPrefix holder "clt-reattached-").bind leadingPid

/-- `agent_lease_holder_pid`. -/
def agentLeaseHolderPid (holder : String) : Option Nat :=
  match recoveredSupervisorPid holder with
  | some pid => some pid
  | none =>
    (((stripHolderPrefix holder "clt-agent-").or (stripHolderPrefix holder "clt-scheduler-")).or
      (stripHolderPrefix holder "clt-interactive-")).bind (parseUnsigned 32)

/-- `guardian_process_id`. -/
def guardianProcessId (holder : String) : Option Nat := do
  let disposition ← InteractiveGuardianDisposition.fromGuardianHolder holder
  let suffix ← stripHolderPrefix holder disposition.guardianHolderPrefix
  if suffix.head? = some '-' then leadingPid suffix.tail else none

/-- `interactive_lease_holder_pid`. -/
def interactiveLeaseHolderPid (holder : String) : Option Nat :=
  match guardianProcessId holder with
  | some pid => some pid
  | none =>
    ["clt-stopped-shared-interactive-", "clt-shared-interactive-",
      "clt-stopped-readonly-interactive-", "clt-readonly-interactive-",
      "clt-stopped-interactive-", "clt-idle-interactive-", "clt-interactive-"].findSome?
        fun pre => (stripHolderPrefix holder pre).bind leadingPid

/-! ## Processes -/

/-- `AgentLeaseHolderLiveness`. -/
inductive AgentLeaseHolderLiveness where
  | currentProcess
  | alive
  | dead
  | unknown
  deriving DecidableEq, Repr

/-- What the system says of processes: `local_process_is_running` and
`automated_agent_process_group_is_running` of each number. A process finds itself running, or
cannot ask. -/
structure Processes where
  unix : Bool
  currentPid : Nat
  running : Nat → Option Bool
  groupRunning : Nat → Option Bool
  self_running : running currentPid ≠ some false

namespace Processes

variable (os : Processes)

/-- `agent_pid_liveness`. -/
def agentPidLiveness (pid : Nat) : AgentLeaseHolderLiveness :=
  if pid = os.currentPid then .currentProcess
  else
    match os.running pid with
    | some true => .alive
    | some false => .dead
    | none => .unknown

/-- `agent_lease_holder_liveness`. -/
def agentLeaseHolderLiveness (holder : String) : AgentLeaseHolderLiveness :=
  match agentLeaseHolderPid holder with
  | none => .unknown
  | some pid => os.agentPidLiveness pid

/-- `interactive_lease_holder_liveness`. -/
def interactiveLeaseHolderLiveness (holder : String) : Option AgentLeaseHolderLiveness :=
  (interactiveLeaseHolderPid holder).map os.agentPidLiveness

/-- `interactive_lease_holder_is_proven_dead`. -/
def interactiveLeaseHolderIsProvenDead (holder : String) : Bool :=
  os.interactiveLeaseHolderLiveness holder = some .dead

/-- `guardian_process_is_proven_dead`. -/
def guardianProcessIsProvenDead (holder : String) : Bool :=
  (guardianProcessId holder).any fun pid => os.running pid == some false

/-- `interactive_guardian_child_is_proven_absent`. -/
def interactiveGuardianChildIsProvenAbsent (childPid : Option Nat) : Bool :=
  if os.unix then childPid.all fun pid => os.groupRunning pid == some false else childPid.isNone

/-- `agent_lease_is_reclaimable`. -/
def agentLeaseIsReclaimable (lease : Lease) (reclaimCurrentProcessLeases : Bool) (now : Nat) :
    Bool :=
  if (recoveredSupervisorPid lease.holder).isSome then
    os.agentLeaseHolderLiveness lease.holder = .dead
  else if (parseUnsigned 64 lease.expiresAt.toList).any fun expiresAt => expiresAt ≤ now then true
  else
    match os.agentLeaseHolderLiveness lease.holder with
    | .dead => true
    | .currentProcess => reclaimCurrentProcessLeases
    | .alive | .unknown => false

/-- A guardian that is dead as a process is dead as a holder. -/
theorem provenDead_of_guardian {holder : String}
    (h : os.guardianProcessIsProvenDead holder = true) :
    os.interactiveLeaseHolderIsProvenDead holder = true := by
  unfold guardianProcessIsProvenDead at h
  cases hpid : guardianProcessId holder with
  | none => rw [hpid] at h; cases h
  | some pid =>
    rw [hpid] at h
    have hdead : os.running pid = some false := beq_iff_eq.mp h
    have hother : pid ≠ os.currentPid := by
      rintro rfl
      exact os.self_running hdead
    have hholder : interactiveLeaseHolderPid holder = some pid := by
      rw [interactiveLeaseHolderPid, hpid]
    unfold interactiveLeaseHolderIsProvenDead interactiveLeaseHolderLiveness
    rw [hholder, Option.map_some, agentPidLiveness, if_neg hother, hdead]
    rfl

/-- A holder that is named after nothing with a process of its own is never found dead. -/
theorem agentLeaseHolderLiveness_eq_unknown {holder pre : String}
    (hpre : startsWith holder pre = true)
    (hother : ∀ other ∈ ["clt-reattached-", "clt-agent-", "clt-scheduler-", "clt-interactive-"],
      ¬ (other.toList <+: pre.toList ∨ pre.toList <+: other.toList)) :
    os.agentLeaseHolderLiveness holder = .unknown := by
  have hnone {other : String}
      (hmem : other ∈ ["clt-reattached-", "clt-agent-", "clt-scheduler-", "clt-interactive-"]) :
      stripHolderPrefix holder other = none := by
    refine if_neg fun hstarts => hother other hmem ?_
    exact prefix_of_startsWith hstarts hpre
  have hpid : agentLeaseHolderPid holder = none := by
    rw [agentLeaseHolderPid, recoveredSupervisorPid, hnone (by simp), hnone (by simp),
      hnone (by simp), hnone (by simp)]
    rfl
  rw [agentLeaseHolderLiveness, hpid]

end Processes

end Clt
