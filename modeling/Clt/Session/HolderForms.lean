import Clt.Session.Liveness

/-!
# Forms of interactive holders

A guardian of an interactive session and the reservation before it are named by a prefix, the
process that made the name, and two numbers that tell its names apart. The prefix says what becomes
of the session afterwards. Three lists of prefixes read such names back: one recognises guardians,
two find the process; some of the prefixes begin others.
-/

namespace Clt

open Relational

/-! ## Writing a holder -/

/-- `InteractiveCodexResumeMode`. -/
inductive InteractiveCodexResumeMode where
  | resumeExec
  | writableIdle
  | writableShared
  deriving DecidableEq, Repr

namespace InteractiveCodexResumeMode

/-- `resumes_exec`. -/
def resumesExec (mode : InteractiveCodexResumeMode) : Bool := mode == .resumeExec

/-- `shares_project`. -/
def sharesProject (mode : InteractiveCodexResumeMode) : Bool := mode == .writableShared

end InteractiveCodexResumeMode

/-- `from_handoff`. -/
def InteractiveGuardianDisposition.fromHandoff (mode : InteractiveCodexResumeMode)
    (fromHolder : String) : InteractiveGuardianDisposition :=
  if mode.resumesExec then .resumeExec
  else if mode.sharesProject then
    if isStoppedSharedInteractiveHolder fromHolder then .restoreStoppedShared
    else .preserveSharedSession
  else if startsWith fromHolder "clt-stopped-interactive-" then .restoreStopped
  else .preserveIdleSession

/-- `holder_for_current_process_with_prefix`, of the process, the time and the counter. -/
def holderForProcess (pre : String) (pid generation sequence : Nat) : String :=
  pre ++ "-" ++ toString pid ++ "-" ++ toString generation ++ "-" ++ toString sequence

/-- `holder_for_current_process`, `holder_for_idle_session`, `holder_for_stopped_session` and
`holder_for_shared_session`. -/
inductive InteractiveHolderForm where
  | exec
  | idle
  | stopped
  | shared (restoreStopped : Bool)
  deriving DecidableEq, Repr

namespace InteractiveHolderForm

/-- The prefix of such holders. -/
def holderPrefix : InteractiveHolderForm → String
  | exec => "clt-interactive"
  | idle => "clt-idle-interactive"
  | stopped => "clt-stopped-interactive"
  | shared true => "clt-stopped-shared-interactive"
  | shared false => "clt-shared-interactive"

def holder (form : InteractiveHolderForm) : Nat → Nat → Nat → String :=
  holderForProcess form.holderPrefix

end InteractiveHolderForm

/-- The forms of guardian holders: those of `interactive_guardian_holder`, and those that the
read-only implementation wrote. -/
inductive GuardianHolderForm where
  | current (disposition : InteractiveGuardianDisposition)
  | readonly (restoreStopped : Bool)
  deriving DecidableEq, Repr

namespace GuardianHolderForm

def holderPrefix : GuardianHolderForm → String
  | current disposition => disposition.guardianHolderPrefix
  | readonly true => "clt-stopped-readonly-interactive-worker"
  | readonly false => "clt-readonly-interactive-worker"

/-- What the holder was built from. -/
def disposition : GuardianHolderForm → InteractiveGuardianDisposition
  | current disposition => disposition
  | readonly true => .restoreStoppedShared
  | readonly false => .preserveSharedSession

def holder (form : GuardianHolderForm) : Nat → Nat → Nat → String :=
  holderForProcess form.holderPrefix

end GuardianHolderForm

/-! ## Reading it -/

section Digits

variable {n : Nat}

theorem toList_toString (n : Nat) : (toString n).toList = Nat.toDigits 10 n := by
  show (Nat.repr n).toList = _
  rw [Nat.repr, String.toList_ofList]

theorem isDigit_of_mem_toString {c : Char} (h : c ∈ (toString n).toList) : c.isDigit = true := by
  rw [toList_toString] at h
  exact Nat.isDigit_of_mem_toDigits (by decide) (by decide) h

theorem digitsValue_toString (n : Nat) : digitsValue (toString n).toList = n := by
  rw [toList_toString]
  exact Nat.ofDigitChars_ten_toDigits

/-- A number that fits is read back. -/
theorem parseUnsigned_toString {bits : Nat} (h : n < 2 ^ bits) :
    parseUnsigned bits (toString n).toList = some n := by
  have hsign : (toString n).toList.head? ≠ some '+' := by
    intro hplus
    have hdigit := isDigit_of_mem_toString (List.mem_of_head? hplus)
    cases hdigit
  have hne : (toString n).toList ≠ [] := by
    rw [toList_toString]
    exact Nat.toDigits_ne_nil
  have hall : (toString n).toList.all Char.isDigit = true :=
    List.all_eq_true.mpr fun c hc => isDigit_of_mem_toString hc
  unfold parseUnsigned
  dsimp only
  rw [if_neg hsign, digitsValue_toString, if_pos ⟨hne, hall, h⟩]

end Digits

section Holder

variable {pre other : String} {pid generation sequence : Nat}

/-- What stands behind the prefix and its dash. -/
def holderNumbers (pid generation sequence : Nat) : List Char :=
  (toString pid).toList ++ '-' :: ((toString generation).toList ++ '-' :: (toString sequence).toList)

theorem toList_holderForProcess (p : Spelling pre) (pid generation sequence : Nat) :
    (holderForProcess pre pid generation sequence).toList =
      (p.chars ++ ['-']) ++ holderNumbers pid generation sequence := by
  simp [holderForProcess, holderNumbers, p.spelled]

theorem leadingPid_holderNumbers (h : pid < 2 ^ 32) :
    leadingPid (holderNumbers pid generation sequence) = some pid := by
  have htake : (holderNumbers pid generation sequence).takeWhile (fun c => c ≠ '-') =
      (toString pid).toList := by
    rw [holderNumbers, List.takeWhile_append_of_pos, List.takeWhile_cons_of_neg (by simp),
      List.append_nil]
    intro c hc
    have hdigit := isDigit_of_mem_toString hc
    refine decide_eq_true ?_
    rintro rfl
    cases hdigit
  rw [leadingPid, htake, parseUnsigned_toString h]

/-- The numbers begin with a digit, so a prefix without digits ends before them. -/
theorem startsWith_holderForProcess (p : Spelling pre) (q : Spelling other)
    (hother : q.chars.all (fun c => !c.isDigit) = true) :
    startsWith (holderForProcess pre pid generation sequence) other =
      q.chars.isPrefixOf (p.chars ++ ['-']) := by
  rw [startsWith, q.spelled, toList_holderForProcess p, Bool.eq_iff_iff,
    List.isPrefixOf_iff_prefix, List.isPrefixOf_iff_prefix]
  constructor
  · intro h
    rcases List.prefix_or_prefix_of_prefix h (List.prefix_append _ _) with hshort | ⟨t, ht⟩
    · exact hshort
    · cases t with
      | nil =>
        rw [List.append_nil] at ht
        exact ht ▸ List.prefix_refl _
      | cons c t =>
        rw [← ht] at h
        have hc : c :: t <+: holderNumbers pid generation sequence :=
          (List.prefix_append_right_inj _).mp h
        -- A longer prefix would go on with a digit of the process.
        have hdigits : (toString pid).toList ≠ [] := by
          rw [toList_toString]
          exact Nat.toDigits_ne_nil
        obtain ⟨d, ds, hd⟩ := List.exists_cons_of_ne_nil hdigits
        rw [holderNumbers, hd, List.cons_append, List.cons_prefix_cons] at hc
        have hdigit : c.isDigit = true := by
          rw [hc.1]
          exact isDigit_of_mem_toString (hd ▸ List.mem_cons_self)
        have hnot := List.all_eq_true.mp hother c (by rw [← ht]; simp)
        rw [hdigit] at hnot
        cases hnot
  · exact fun h => h.trans (List.prefix_append _ _)

theorem stripHolderPrefix_holderForProcess (p : Spelling pre) (q : Spelling other)
    (hother : q.chars.all (fun c => !c.isDigit) = true) :
    stripHolderPrefix (holderForProcess pre pid generation sequence) other =
      if q.chars.isPrefixOf (p.chars ++ ['-']) then
        some ((p.chars ++ ['-']).drop q.chars.length ++ holderNumbers pid generation sequence)
      else none := by
  rw [stripHolderPrefix, startsWith_holderForProcess p q hother]
  split
  · rename_i hstarts
    rw [List.isPrefixOf_iff_prefix] at hstarts
    rw [toList_holderForProcess p, q.spelled, List.drop_append_of_le_length hstarts.length_le]
  · rfl

end Holder

/-! ## Spelled prefixes -/

/-- The characters of `guardian_holder_prefix`. -/
def InteractiveGuardianDisposition.spelling :
    (d : InteractiveGuardianDisposition) → Spelling d.guardianHolderPrefix
  | resumeExec | preserveIdleSession | restoreStopped | preserveSharedSession
  | restoreStoppedShared => .lit _

def InteractiveHolderForm.spelling : (form : InteractiveHolderForm) → Spelling form.holderPrefix
  | exec | idle | stopped | shared true | shared false => .lit _

def GuardianHolderForm.spelling : (form : GuardianHolderForm) → Spelling form.holderPrefix
  | current disposition => disposition.spelling
  | readonly true | readonly false => .lit _

/-- The prefixes that `interactive_lease_holder_pid` goes through. -/
def pidPrefixes : { prefixes : List (List Char) //
    ["clt-stopped-shared-interactive-", "clt-shared-interactive-",
      "clt-stopped-readonly-interactive-", "clt-readonly-interactive-",
      "clt-stopped-interactive-", "clt-idle-interactive-", "clt-interactive-"] =
        prefixes.map String.ofList } :=
  ⟨[_, _, _, _, _, _, _], rfl⟩

theorem pidPrefixes_digits : ∀ chars ∈ pidPrefixes.1, chars.all (fun c => !c.isDigit) = true := by
  decide

theorem guardianHolderPrefix_digits (d : InteractiveGuardianDisposition) :
    d.spelling.chars.all (fun c => !c.isDigit) = true := by
  cases d <;> decide

theorem fromGuardianHolder_holderForProcess {pre : String} (p : Spelling pre)
    (pid generation sequence : Nat) :
    InteractiveGuardianDisposition.fromGuardianHolder
        (holderForProcess pre pid generation sequence) =
      if (Spelling.lit _ : Spelling "clt-stopped-readonly-interactive-worker-").chars.isPrefixOf
          (p.chars ++ ['-']) then some .restoreStoppedShared
      else if (Spelling.lit _ : Spelling "clt-readonly-interactive-worker-").chars.isPrefixOf
          (p.chars ++ ['-']) then some .preserveSharedSession
      else [InteractiveGuardianDisposition.resumeExec, .preserveIdleSession, .restoreStopped,
        .preserveSharedSession, .restoreStoppedShared].find? fun d =>
          d.spelling.chars.isPrefixOf (p.chars ++ ['-']) := by
  unfold InteractiveGuardianDisposition.fromGuardianHolder
  have hcurrent : (fun d : InteractiveGuardianDisposition =>
      startsWith (holderForProcess pre pid generation sequence) d.guardianHolderPrefix) =
        fun d => d.spelling.chars.isPrefixOf (p.chars ++ ['-']) :=
    funext fun d => startsWith_holderForProcess p d.spelling (guardianHolderPrefix_digits d)
  rw [startsWith_holderForProcess p (.lit _) (by decide),
    startsWith_holderForProcess p (.lit _) (by decide), hcurrent]

/-! ## Guardians -/

section Guardian

variable {pid generation sequence : Nat}

theorem fromGuardianHolder_holder (form : GuardianHolderForm) (pid generation sequence : Nat) :
    InteractiveGuardianDisposition.fromGuardianHolder (form.holder pid generation sequence) =
      some form.disposition := by
  rw [GuardianHolderForm.holder, fromGuardianHolder_holderForProcess form.spelling]
  rcases form with (_ | _ | _ | _ | _) | _ | _ <;> decide

/-- The prefix of a current guardian is taken off, with the dash behind it. -/
theorem stripHolderPrefix_current (d : InteractiveGuardianDisposition) :
    stripHolderPrefix ((GuardianHolderForm.current d).holder pid generation sequence)
        d.guardianHolderPrefix = some ('-' :: holderNumbers pid generation sequence) := by
  have hstarts : d.spelling.chars.isPrefixOf (d.spelling.chars ++ ['-']) = true :=
    List.isPrefixOf_iff_prefix.mpr (List.prefix_append _ _)
  rw [GuardianHolderForm.holder, GuardianHolderForm.holderPrefix,
    stripHolderPrefix_holderForProcess d.spelling d.spelling (guardianHolderPrefix_digits d),
    if_pos hstarts, List.drop_left]
  rfl

theorem guardianProcessId_current (d : InteractiveGuardianDisposition) (h : pid < 2 ^ 32) :
    guardianProcessId ((GuardianHolderForm.current d).holder pid generation sequence) =
      some pid := by
  rw [guardianProcessId, fromGuardianHolder_holder, Option.bind_eq_bind, Option.bind_some,
    GuardianHolderForm.disposition, stripHolderPrefix_current, Option.bind_eq_bind,
    Option.bind_some, if_pos List.head?_cons, List.tail_cons]
  exact leadingPid_holderNumbers h

/-- The prefix of the disposition is none of a legacy holder. -/
theorem guardianProcessId_readonly (restoreStopped : Bool) :
    guardianProcessId ((GuardianHolderForm.readonly restoreStopped).holder pid generation
      sequence) = none := by
  rw [guardianProcessId, fromGuardianHolder_holder, Option.bind_eq_bind, Option.bind_some,
    GuardianHolderForm.holder,
    stripHolderPrefix_holderForProcess (GuardianHolderForm.readonly restoreStopped).spelling
      (InteractiveGuardianDisposition.spelling _) (guardianHolderPrefix_digits _), if_neg]
  · rfl
  · cases restoreStopped <;> decide

end Guardian

/-! ## Processes of holders -/

section Process

variable {pid generation sequence : Nat}

/-- `worker` is no number. -/
theorem leadingPid_worker (rest : List Char) :
    leadingPid (['w', 'o', 'r', 'k', 'e', 'r', '-'] ++ rest) = none := by
  have htake : (['w', 'o', 'r', 'k', 'e', 'r', '-'] ++ rest).takeWhile (fun c => c ≠ '-') =
      ['w', 'o', 'r', 'k', 'e', 'r'] := by
    simp
  rw [leadingPid, htake]
  decide

theorem interactiveLeaseHolderPid_of_guardian {holder : String}
    (h : guardianProcessId holder = some pid) : interactiveLeaseHolderPid holder = some pid := by
  rw [interactiveLeaseHolderPid, h]

theorem interactiveLeaseHolderPid_of_no_guardian {holder : String}
    (h : guardianProcessId holder = none) :
    interactiveLeaseHolderPid holder = pidPrefixes.1.findSome? fun chars =>
      (stripHolderPrefix holder (String.ofList chars)).bind leadingPid := by
  rw [interactiveLeaseHolderPid, h]
  exact (congrArg (List.findSome? _) pidPrefixes.2).trans List.findSome?_map

theorem interactiveLeaseHolderPid_readonly (restoreStopped : Bool) :
    interactiveLeaseHolderPid ((GuardianHolderForm.readonly restoreStopped).holder pid generation
      sequence) = none := by
  rw [interactiveLeaseHolderPid_of_no_guardian (guardianProcessId_readonly restoreStopped)]
  refine List.findSome?_eq_none_iff.mpr fun chars hchars => ?_
  -- The only list entry that it begins with leaves `worker` in front.
  have hrest : ∀ chars ∈ pidPrefixes.1,
      chars.isPrefixOf ((GuardianHolderForm.readonly restoreStopped).spelling.chars ++ ['-']) =
        true →
      ((GuardianHolderForm.readonly restoreStopped).spelling.chars ++ ['-']).drop chars.length =
        ['w', 'o', 'r', 'k', 'e', 'r', '-'] := by
    cases restoreStopped <;> decide
  rw [GuardianHolderForm.holder, stripHolderPrefix_holderForProcess
    (GuardianHolderForm.readonly restoreStopped).spelling (.lit chars)
    (pidPrefixes_digits chars hchars)]
  split
  · rename_i hstarts
    have hworker := hrest chars hchars hstarts
    rw [Option.bind_some, Spelling.lit, hworker]
    exact leadingPid_worker _
  · rfl

theorem fromGuardianHolder_plain (form : InteractiveHolderForm) (pid generation sequence : Nat) :
    InteractiveGuardianDisposition.fromGuardianHolder (form.holder pid generation sequence) =
      none := by
  rw [InteractiveHolderForm.holder, fromGuardianHolder_holderForProcess form.spelling]
  rcases form with _ | _ | _ | _ | _ <;> decide

theorem interactiveLeaseHolderPid_plain (form : InteractiveHolderForm) (h : pid < 2 ^ 32) :
    interactiveLeaseHolderPid (form.holder pid generation sequence) = some pid := by
  have hguardian : guardianProcessId (form.holder pid generation sequence) = none := by
    rw [guardianProcessId, fromGuardianHolder_plain]
    rfl
  -- No other prefix of the list begins the holder.
  have hstarts : ∀ chars ∈ pidPrefixes.1,
      (chars.isPrefixOf (form.spelling.chars ++ ['-']) = true ↔
        chars = form.spelling.chars ++ ['-']) := by
    rcases form with _ | _ | _ | _ | _ <;> decide
  have hentry (chars : List Char) (hchars : chars ∈ pidPrefixes.1) :
      (stripHolderPrefix (form.holder pid generation sequence) (String.ofList chars)).bind
          leadingPid = if chars = form.spelling.chars ++ ['-'] then some pid else none := by
    rw [InteractiveHolderForm.holder, stripHolderPrefix_holderForProcess form.spelling (.lit chars)
      (pidPrefixes_digits chars hchars), Spelling.lit]
    by_cases heq : chars = form.spelling.chars ++ ['-']
    · rw [if_pos ((hstarts chars hchars).mpr heq), if_pos heq, heq, List.drop_length,
        Option.bind_some]
      exact leadingPid_holderNumbers h
    · rw [if_neg fun hs => heq ((hstarts chars hchars).mp hs), if_neg heq]
      rfl
  rw [interactiveLeaseHolderPid_of_no_guardian hguardian]
  rcases hfound : List.findSome? _ _ with _ | found
  · have hnone := List.findSome?_eq_none_iff.mp hfound (form.spelling.chars ++ ['-'])
    have hmem : form.spelling.chars ++ ['-'] ∈ pidPrefixes.1 := by
      rcases form with _ | _ | _ | _ | _ <;> decide
    have hown := hnone hmem
    rw [hentry _ hmem, if_pos rfl] at hown
    cases hown
  · obtain ⟨chars, hmem, hchars⟩ := List.exists_of_findSome?_eq_some hfound
    rw [hentry _ hmem] at hchars
    split at hchars
    · exact hchars.symm
    · cases hchars

end Process

/-! ## The hand-off -/

/-- The holder that is generated for a stopped session, plain or shared. -/
def stoppedSessionForm (shared : Bool) : InteractiveHolderForm :=
  if shared then .shared true else .stopped

/-- The disposition that stops the session again. -/
def restoreStoppedDisposition (shared : Bool) : InteractiveGuardianDisposition :=
  if shared then .restoreStoppedShared else .restoreStopped

theorem fromHandoff_stopped (mode : InteractiveCodexResumeMode) (shared : Bool)
    (hmode : mode.resumesExec = false) (pid generation sequence : Nat) :
    InteractiveGuardianDisposition.fromHandoff mode
        ((stoppedSessionForm shared).holder pid generation sequence) =
      restoreStoppedDisposition shared ↔ mode.sharesProject = shared := by
  unfold InteractiveGuardianDisposition.fromHandoff isStoppedSharedInteractiveHolder
  rw [InteractiveHolderForm.holder,
    startsWith_holderForProcess (stoppedSessionForm shared).spelling (.lit _) (by decide),
    startsWith_holderForProcess (stoppedSessionForm shared).spelling (.lit _) (by decide),
    startsWith_holderForProcess (stoppedSessionForm shared).spelling (.lit _) (by decide)]
  revert hmode
  cases mode <;> cases shared <;> decide

/-! ## All forms together -/

/-- What reading a guardian's holder gives back. -/
structure GuardianHolderReads (form : GuardianHolderForm) (pid generation sequence : Nat) :
    Prop where
  disposition : InteractiveGuardianDisposition.fromGuardianHolder
    (form.holder pid generation sequence) = some form.disposition
  guardianPid : guardianProcessId (form.holder pid generation sequence) = some pid
  interactivePid : interactiveLeaseHolderPid (form.holder pid generation sequence) = some pid

/-- What reading a plain holder gives back. -/
structure PlainHolderReads (form : InteractiveHolderForm) (pid generation sequence : Nat) :
    Prop where
  noGuardian : InteractiveGuardianDisposition.fromGuardianHolder
    (form.holder pid generation sequence) = none
  interactivePid : interactiveLeaseHolderPid (form.holder pid generation sequence) = some pid

theorem guardianHolderReads_iff {pid : Nat} (form : GuardianHolderForm)
    (generation sequence : Nat) (hpid : pid < 2 ^ 32) :
    GuardianHolderReads form pid generation sequence ↔
      ∀ restoreStopped, form ≠ .readonly restoreStopped := by
  constructor
  · rintro hreads restoreStopped rfl
    have hpidRead := hreads.guardianPid
    rw [guardianProcessId_readonly] at hpidRead
    cases hpidRead
  · intro hcurrent
    cases form with
    | current d =>
      have hpidRead : guardianProcessId
          ((GuardianHolderForm.current d).holder pid generation sequence) = some pid :=
        guardianProcessId_current d hpid
      exact ⟨fromGuardianHolder_holder _ _ _ _, hpidRead,
        interactiveLeaseHolderPid_of_guardian hpidRead⟩
    | readonly restoreStopped => exact absurd rfl (hcurrent restoreStopped)

/-- Every holder is read back but for the process of a guardian of the read-only implementation,
and a stopped session stays stopped in the mode its holder was generated for. -/
theorem interactiveHolders (pid generation sequence : Nat) (hpid : pid < 2 ^ 32) :
    (∀ form : GuardianHolderForm, GuardianHolderReads form pid generation sequence ↔
      ∀ restoreStopped, form ≠ .readonly restoreStopped) ∧
    (∀ form : InteractiveHolderForm, PlainHolderReads form pid generation sequence) ∧
    ∀ (mode : InteractiveCodexResumeMode) (shared : Bool), mode.resumesExec = false →
      (InteractiveGuardianDisposition.fromHandoff mode
          ((stoppedSessionForm shared).holder pid generation sequence) =
        restoreStoppedDisposition shared ↔ mode.sharesProject = shared) := by
  refine ⟨fun form => guardianHolderReads_iff form generation sequence hpid, fun form => ?_,
    fun mode shared hmode => fromHandoff_stopped mode shared hmode pid generation sequence⟩
  exact ⟨fromGuardianHolder_plain form pid generation sequence,
    interactiveLeaseHolderPid_plain form hpid⟩

theorem interactiveHolders_first :
    (GuardianHolderReads (.current .restoreStopped) 42 7 0 ↔
      ∀ restoreStopped, GuardianHolderForm.current .restoreStopped ≠ .readonly restoreStopped) ∧
    PlainHolderReads .idle 42 7 0 :=
  have h := interactiveHolders 42 7 0 (by decide)
  ⟨h.1 _, h.2.1 _⟩

/-- A guardian of the read-only implementation is recognised, but its process is not found. -/
theorem readonly_guardian_without_process :
    let holder := (GuardianHolderForm.readonly false).holder 42 7 0
    holder = "clt-readonly-interactive-worker-42-7-0" ∧
      InteractiveGuardianDisposition.fromGuardianHolder holder = some .preserveSharedSession ∧
      guardianProcessId holder ≠ some 42 ∧ interactiveLeaseHolderPid holder ≠ some 42 := by
  refine ⟨String.toList_injective ?_, fromGuardianHolder_holder _ _ _ _, ?_, ?_⟩
  · rw [GuardianHolderForm.holder,
      toList_holderForProcess (GuardianHolderForm.readonly false).spelling, holderNumbers,
      toList_toString, toList_toString, toList_toString, String.toList_ofList]
    decide
  · rw [guardianProcessId_readonly]
    exact nofun
  · rw [interactiveLeaseHolderPid_readonly]
    exact nofun

end Clt
