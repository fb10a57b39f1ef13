import Clt.Platform.Orphan

/-!
# The members that an orphan keeps

A process is owned by induction over the sweeps: it carried the exact context of the run, or it
was captured in the group between two moments at which a process that is owned was in it. The
members that an orphan keeps are owned after every sweep.
-/

namespace Clt

open Interleave Program

/-! ## What the kernel did over time -/

/-- The moments of the kernel. A process number that has a generation at two moments had it in
between, and a group that a process is in at two moments is the same group in between: neither
number is given to others while its holder is there. What is born, what exits and what gets a
free number between two calls is left open. -/
structure KernelHistory where
  moment : Nat → Kernel
  incarnation : Nat → Int → Nat
  same_generation : ∀ {a b c : Nat} {process : NativeProcess}, a ≤ b → b ≤ c →
    (moment a).has process = true → (moment c).has process = true →
    ((moment b).process? process.pid).map KernelProcess.generation = some process.generation
  same_group : ∀ {a b c : Nat} {process : NativeProcess}, a ≤ b → b ≤ c →
    (moment a).has process = true → (moment c).has process = true →
    incarnation b process.processGroup = incarnation a process.processGroup

namespace KernelHistory

variable (history : KernelHistory)

/-- The kernel moves on as it did; the orphan keeps its members. -/
def others (n : Nat) (w : Machine) : Machine := { w with moment := n, kernel := history.moment n }

/-- The process had the number at the moment, with this environment. -/
def Carried (moment : Nat) (process : NativeProcess) (environment : Bytes) : Prop :=
  ∃ found, (history.moment moment).process? process.pid = some found ∧
    found.generation = process.generation ∧ found.environment = environment

/-- The process was in the group of the run, and its environment was read there. -/
structure Captured (run : OrphanRun) (start stop : Nat) (process : NativeProcess)
    (environment : Bytes) : Prop where
  group : process.processGroup = run.processGroup
  seen : ∃ first read last, start ≤ first ∧ first < read ∧ read < last ∧ last < stop ∧
    (history.moment first).has process = true ∧
    history.Carried read process environment ∧
    (history.moment last).has process = true

/-- What the run may signal at a moment. -/
inductive Owned (run : OrphanRun) : Nat → NativeProcess → Prop
  | exact {start stop : Nat} {process : NativeProcess} {environment : Bytes}
      (hcaptured : history.Captured run start stop process environment)
      (hcontext : Orphan.carriesContext run environment = true) :
      Owned run stop process
  | member {known before start stop after now : Nat} {anchor process : NativeProcess}
      {environment : Bytes} (hanchor : Owned run known anchor) (hknown : known ≤ before)
      (hbefore : before < start) (hafter : stop ≤ after) (hnow : after < now)
      (hcurrent : (history.moment before).has anchor = true)
      (hcaptured : history.Captured run start stop process environment)
      (hstill : (history.moment after).has anchor = true) :
      Owned run now process

variable {history} {run : OrphanRun} {process : NativeProcess} {environment : Bytes}

theorem Captured.mono {start start' stop stop' : Nat}
    (h : history.Captured run start stop process environment) (hstart : start' ≤ start)
    (hstop : stop ≤ stop') : history.Captured run start' stop' process environment := by
  obtain ⟨first, read, last, h1, h2, h3, h4, hfirst, hread, hlast⟩ := h.seen
  exact ⟨h.group, first, read, last, Nat.le_trans hstart h1, h2, h3, by omega, hfirst, hread, hlast⟩

theorem Owned.mono {now later : Nat} (h : history.Owned run now process) (hlater : now ≤ later) :
    history.Owned run later process := by
  cases h with
  | exact hcaptured hcontext => exact .exact (hcaptured.mono (Nat.le_refl _) hlater) hcontext
  | member hanchor hknown hbefore hafter hnow hcurrent hcaptured hstill =>
    exact .member hanchor hknown hbefore hafter (by omega) hcurrent hcaptured hstill

/-- A process in the group that carried the exact context, and a later member of its line that was
in the group while the number of the group was still its own. -/
structure Kin (history : KernelHistory) (run : OrphanRun) (now : Nat) (process : NativeProcess) :
    Prop where
  group : process.processGroup = run.processGroup
  line : ∃ origin environment found read seen,
    origin.processGroup = run.processGroup ∧
    (history.moment found).has origin = true ∧
    history.Carried read origin environment ∧
    Orphan.carriesContext run environment = true ∧
    seen < now ∧ (history.moment seen).has process = true ∧
    history.incarnation seen run.processGroup = history.incarnation found run.processGroup

/-- The group of whatever is owned is the one of the run, and not another that got its number. -/
theorem Owned.kin {now : Nat} (h : history.Owned run now process) : history.Kin run now process := by
  induction h with
  | exact hcaptured hcontext =>
    obtain ⟨first, read, last, h1, h2, h3, h4, hfirst, hread, hlast⟩ := hcaptured.seen
    exact ⟨hcaptured.group, _, _, first, read, first, hcaptured.group, hfirst, hread, hcontext,
      by omega, hfirst, rfl⟩
  | member hanchor hknown hbefore hafter hnow hcurrent hcaptured hstill ih =>
    obtain ⟨first, read, last, h1, h2, h3, h4, hfirst, hread, hlast⟩ := hcaptured.seen
    obtain ⟨hgroup, origin, _, found, originRead, seen, horigin, hhas, hcarried, hcontext, hseen,
      hanchorSeen, hsame⟩ := ih
    -- The anchor was in the group from the moment it was seen until the sweep was over.
    have hsince := history.same_group (b := first) (by omega) (by omega) hanchorSeen hstill
    rw [hgroup] at hsince
    exact ⟨hcaptured.group, origin, _, found, originRead, first, horigin, hhas, hcarried, hcontext,
      by omega, hfirst, hsince.trans hsame⟩

/-- The environment that was read is that of the generation that was captured: a reused number
would not have been current afterwards. -/
theorem carried_of_read {first read last : Nat} (h1 : first ≤ read) (h2 : read ≤ last)
    (hfirst : (history.moment first).has process = true)
    (hlast : (history.moment last).has process = true)
    (hread : (history.moment read).environment process = .ok environment) :
    history.Carried read process environment := by
  have hgeneration := history.same_generation h1 h2 hfirst hlast
  obtain ⟨found, hfound, hsame⟩ := Option.map_eq_some_iff.mp hgeneration
  refine ⟨found, hfound, hsame, ?_⟩
  rw [Kernel.environment, hfound, Kernel.answers] at hread
  cases hrefuses : (history.moment read).refuses process.pid with
  | some error => rw [hrefuses] at hread; cases hread
  | none => rw [hrefuses] at hread; exact Except.ok.inj hread

theorem has_of_isCurrent {k : Kernel} (h : k.isCurrent process = .ok true) :
    k.has process = true := by
  rw [Kernel.isCurrent, Kernel.answers] at h
  cases hrefuses : k.refuses process.pid with
  | some error => rw [hrefuses] at h; cases h
  | none => rw [hrefuses] at h; exact Except.ok.inj h

theorem has_of_capture {k : Kernel} {pid : Int} (h : k.capture pid = .ok (some process)) :
    k.has process = true := by
  rw [Kernel.capture, Kernel.answers] at h
  cases hrefuses : k.refuses pid with
  | some error => rw [hrefuses] at h; cases h
  | none =>
    rw [hrefuses] at h
    have hsome := Except.ok.inj h
    split at hsome
    · cases hsome
    · obtain ⟨found, hfound, rfl⟩ := Option.map_eq_some_iff.mp hsome
      rw [Kernel.has, hfound, Option.any_some]
      simp

end KernelHistory

/-! ## What a call makes of a run -/

namespace Orphan

variable {history : KernelHistory} {run : OrphanRun} {α β : Type}
  {r r' r'' : Run Machine OrphanEvent} {events more : List OrphanEvent}

/-- The run after a call of the kernel that logs nothing. -/
def next (history : KernelHistory) (r : Run Machine OrphanEvent) : Run Machine OrphanEvent :=
  ⟨r.clock + 1, history.others r.clock r.world, r.log⟩

theorem call_apply (f : Kernel → Except String α) (r : Run Machine OrphanEvent) :
    call f history.others r = (f (history.moment r.clock), next history r) := by
  show (f (history.moment r.clock), (⟨r.clock + 1, _, r.log ++ []⟩ : Run Machine OrphanEvent)) = _
  rw [List.append_nil]
  rfl

theorem bind_apply (p : Orphan α) (f : α → Orphan β) (r : Run Machine OrphanEvent) :
    (p >>= f) history.others r =
      match p history.others r with
      | (.ok a, r') => f a history.others r'
      | (.error e, r') => (.error e, r') := by
  show andThen p f history.others r = _
  unfold andThen
  rcases p history.others r with ⟨_ | a, r'⟩
  · rfl
  · rfl

/-- The kernel was asked, and some events were logged. -/
structure Goes (r r' : Run Machine OrphanEvent) (events : List OrphanEvent) : Prop where
  clock : r.clock ≤ r'.clock
  log : r'.log = r.log ++ events

theorem Goes.refl (r : Run Machine OrphanEvent) : Goes r r [] :=
  ⟨Nat.le_refl _, (List.append_nil _).symm⟩

theorem Goes.trans (h : Goes r r' events) (h' : Goes r' r'' more) :
    Goes r r'' (events ++ more) :=
  ⟨Nat.le_trans h.clock h'.clock, by rw [h'.log, h.log, List.append_assoc]⟩

theorem goes_next (r : Run Machine OrphanEvent) : Goes r (next history r) [] :=
  ⟨Nat.le_succ _, (List.append_nil _).symm⟩

/-- The member that a step of the loops over the group has captured. -/
def CaptureSpec (history : KernelHistory) (run : OrphanRun) (r : Run Machine OrphanEvent)
    (out : Except String (Option (NativeProcess × Bytes)) × Run Machine OrphanEvent) : Prop :=
  out.2.world.members = r.world.members ∧
    match out.1 with
    | .ok (some (process, environment)) =>
      history.Captured run r.clock out.2.clock process environment ∧
        Goes r out.2 [.inspected process environment]
    | _ => Goes r out.2 []

theorem captureMember_spec (history : KernelHistory) (run : OrphanRun) (pid : Int)
    (r : Run Machine OrphanEvent) :
    CaptureSpec history run r (captureMember run pid history.others r) := by
  have hnext : Goes r (next history r) [] := goes_next r
  unfold captureMember
  rw [bind_apply, call_apply]
  cases hcapture : (history.moment r.clock).capture pid with
  | error e => exact ⟨rfl, hnext⟩
  | ok captured =>
    cases captured with
    | none => exact ⟨rfl, hnext⟩
    | some process =>
      dsimp only
      split
      · exact ⟨rfl, hnext⟩
      · rename_i hgroup
        -- The environment is read between two looks at the same process, so it is that process's.
        rw [bind_apply, attempt, call_apply]
        dsimp only
        rw [bind_apply, call_apply]
        have hlater : Goes r (next history (next history (next history r))) [] :=
          (hnext.trans (goes_next _)).trans (goes_next _)
        cases hcurrent : (history.moment (next history (next history r)).clock).isCurrent
            process with
        | error e => exact ⟨rfl, hlater⟩
        | ok current =>
          cases current with
          | false => exact ⟨rfl, hlater⟩
          | true =>
            dsimp only
            rw [if_pos rfl, bind_apply]
            cases hread : (history.moment (next history r).clock).environment process with
            | error e => exact ⟨rfl, hlater⟩
            | ok environment =>
              have hfirst := KernelHistory.has_of_capture hcapture
              have hlast := KernelHistory.has_of_isCurrent hcurrent
              refine ⟨rfl, ⟨not_not.mp hgroup, r.clock, r.clock + 1, r.clock + 2, Nat.le_refl _,
                by omega, by omega, ?_, hfirst, ?_, hlast⟩, ?_⟩
              · show r.clock + 2 < r.clock + 1 + 1 + 1 + 1
                omega
              · exact KernelHistory.carried_of_read (Nat.le_succ _) (Nat.le_succ _) hfirst hlast
                  hread
              · exact ⟨Nat.le_add_right r.clock 4, rfl⟩

/-- Members of the group were inspected, and nothing else was done. -/
structure Watches (history : KernelHistory) (run : OrphanRun) (r r' : Run Machine OrphanEvent)
    (events : List OrphanEvent) : Prop extends Goes r r' events where
  seen : ∀ event ∈ events, ∃ process environment, event = .inspected process environment ∧
    history.Captured run r.clock r'.clock process environment

theorem Watches.of_goes (h : Goes r r' []) : Watches history run r r' [] :=
  ⟨h, by simp⟩

theorem Watches.refl (r : Run Machine OrphanEvent) : Watches history run r r [] :=
  .of_goes (.refl r)

theorem Watches.trans (h : Watches history run r r' events)
    (h' : Watches history run r' r'' more) : Watches history run r r'' (events ++ more) := by
  refine ⟨h.toGoes.trans h'.toGoes, fun event hevent => ?_⟩
  rcases List.mem_append.mp hevent with hmem | hmem
  · obtain ⟨process, environment, heq, hcaptured⟩ := h.seen event hmem
    exact ⟨process, environment, heq, hcaptured.mono (Nat.le_refl _) h'.clock⟩
  · obtain ⟨process, environment, heq, hcaptured⟩ := h'.seen event hmem
    exact ⟨process, environment, heq, hcaptured.mono h.clock (Nat.le_refl _)⟩

theorem Watches.next (h : Watches history run (next history r) r' events) :
    Watches history run r r' events :=
  (Watches.of_goes (goes_next r)).trans h

/-- No member that was inspected carries the context of another run. -/
def Clean (run : OrphanRun) (events : List OrphanEvent) : Prop :=
  ∀ process environment, .inspected process environment ∈ events →
    hasContext environment = true → carriesContext run environment = true

theorem clean_nil : Clean run [] := by
  intro process environment h
  cases h

theorem Clean.append (h : Clean run events) (h' : Clean run more) : Clean run (events ++ more) := by
  intro process environment hmem
  rcases List.mem_append.mp hmem with hmem | hmem
  · exact h process environment hmem
  · exact h' process environment hmem

theorem clean_inspected {process : NativeProcess} {environment : Bytes}
    (h : hasContext environment = true → carriesContext run environment = true) :
    Clean run [.inspected process environment] := by
  intro process' environment' hmem
  obtain ⟨rfl, rfl⟩ := OrphanEvent.inspected.inj (List.mem_singleton.mp hmem)
  exact h

theorem verifyContext_eq_ok {environment : Bytes} {context : String}
    (h : verifyContext run environment context = .ok ()) :
    carriesContext run environment = true := by
  rw [verifyContext] at h
  split at h
  · assumption
  · cases h

/-- What was captured was inspected. -/
theorem watches_inspected {process : NativeProcess} {environment : Bytes}
    (hcaptured : history.Captured run r.clock r'.clock process environment)
    (hgoes : Goes r r' [.inspected process environment]) :
    Watches history run r r' [.inspected process environment] := by
  refine ⟨hgoes, fun event hevent => ?_⟩
  exact ⟨process, environment, List.mem_singleton.mp hevent, hcaptured⟩

/-- A part of a sweep that only inspects: it keeps the members, and where it returns nobody
carried another context. -/
structure Sweeps {α : Type} (history : KernelHistory) (run : OrphanRun)
    (r : Run Machine OrphanEvent) (out : Except String α × Run Machine OrphanEvent)
    (post : α → Nat → Prop) : Prop where
  members : out.2.world.members = r.world.members
  watches : ∃ events, Watches history run r out.2 events ∧
    ∀ a, out.1 = .ok a → Clean run events ∧ post a out.2.clock

section Sweeps

variable {post post' : α → Nat → Prop} {out : Except String α × Run Machine OrphanEvent} {a : α}

theorem Sweeps.ok (h : post a r.clock) : Sweeps history run r (.ok a, r) post := by
  refine ⟨rfl, [], .refl r, fun b hb => ⟨clean_nil, ?_⟩⟩
  rw [← Except.ok.inj hb]
  exact h

theorem Sweeps.error {e : String} (hmembers : r'.world.members = r.world.members)
    (hwatches : Watches history run r r' events) : Sweeps history run r (.error e, r') post := by
  refine ⟨hmembers, events, hwatches, fun b hb => ?_⟩
  cases hb

/-- A part that goes on from what was inspected before. -/
theorem Sweeps.after (hmembers : r'.world.members = r.world.members)
    (hwatches : Watches history run r r' events) (hclean : Clean run events)
    (h : Sweeps history run r' out post) : Sweeps history run r out post := by
  obtain ⟨more, hmore, hpost⟩ := h.watches
  refine ⟨h.members.trans hmembers, events ++ more, hwatches.trans hmore, fun a ha => ?_⟩
  obtain ⟨hrest, ha⟩ := hpost a ha
  exact ⟨hclean.append hrest, ha⟩

theorem Sweeps.next (h : Sweeps history run (next history r) out post) :
    Sweeps history run r out post := by
  have hmembers : (Orphan.next history r).world.members = r.world.members := rfl
  exact .after hmembers (.of_goes (goes_next r)) clean_nil h

theorem Sweeps.mono (h : Sweeps history run r out post)
    (hpost : ∀ a stop, r.clock ≤ stop → post a stop → post' a stop) :
    Sweeps history run r out post' := by
  obtain ⟨events, hwatches, hok⟩ := h.watches
  exact ⟨h.members, events, hwatches, fun a ha =>
    ⟨(hok a ha).1, hpost a _ hwatches.clock (hok a ha).2⟩⟩

theorem Sweeps.clock (h : Sweeps history run r out post) : r.clock ≤ out.2.clock := by
  obtain ⟨events, hwatches, -⟩ := h.watches
  exact hwatches.clock

/-- What a part returns is used by the next one, from the run that it leaves. -/
theorem Sweeps.bind {p : Orphan α} {f : α → Orphan β} {goal : β → Nat → Prop}
    (hp : Sweeps history run r (p history.others r) post)
    (hf : ∀ a r', p history.others r = (.ok a, r') → r.clock ≤ r'.clock → post a r'.clock →
      Sweeps history run r' (f a history.others r') goal) :
    Sweeps history run r ((p >>= f) history.others r) goal := by
  rw [bind_apply]
  rcases hrun : p history.others r with ⟨result, r'⟩
  have hclock := hp.clock
  obtain ⟨hmembers, events, hwatches, hok⟩ := hp
  rw [hrun] at hmembers hwatches hok hclock
  cases result with
  | error e => exact .error hmembers hwatches
  | ok a =>
    obtain ⟨hclean, ha⟩ := hok a rfl
    exact .after hmembers hwatches hclean (hf a r' hrun hclock ha)

end Sweeps

/-- A call of the kernel, and what its answer tells of the moment. -/
theorem sweeps_call (f : Kernel → Except String α) (r : Run Machine OrphanEvent) :
    Sweeps history run r (call f history.others r) fun a stop =>
      stop = r.clock + 1 ∧ f (history.moment r.clock) = .ok a := by
  rw [call_apply]
  cases hf : f (history.moment r.clock) with
  | error e => exact .error rfl (.of_goes (goes_next r))
  | ok a => exact .next (.ok ⟨rfl, rfl⟩)

theorem sweeps_ofExcept (x : Except String α) (r : Run Machine OrphanEvent) :
    Sweeps history run r ((ofExcept x : Orphan α) history.others r) fun a stop =>
      stop = r.clock ∧ x = .ok a := by
  cases x with
  | error e => exact .error rfl (.refl r)
  | ok a => exact .ok ⟨rfl, rfl⟩

/-- The first of the loops' tests: a member is captured, and its context is seen to be right, or
the loop ends, or it goes on. -/
theorem sweeps_captureMember {f : Option (NativeProcess × Bytes) → Orphan β}
    {goal : β → Nat → Prop}
    {pid : Int} {r : Run Machine OrphanEvent}
    (hnone : ∀ r', r.clock ≤ r'.clock → Sweeps history run r' (f none history.others r') goal)
    (hsome : ∀ process environment r', r.clock ≤ r'.clock →
      history.Captured run r.clock r'.clock process environment →
      (Sweeps history run r' (f (some (process, environment)) history.others r') goal ∧
        (hasContext environment = true → carriesContext run environment = true)) ∨
      ∃ e, f (some (process, environment)) history.others r' = (.error e, r')) :
    Sweeps history run r ((captureMember run pid >>= f) history.others r) goal := by
  have hcapture := captureMember_spec history run pid r
  rw [bind_apply]
  rcases hfirst : captureMember run pid history.others r with ⟨result, r'⟩
  rw [hfirst] at hcapture
  obtain ⟨hmembers, hcapture⟩ := hcapture
  dsimp only at hmembers hcapture ⊢
  cases result with
  | error e => exact .error hmembers (.of_goes hcapture)
  | ok captured =>
    cases captured with
    | none => exact .after hmembers (.of_goes hcapture) clean_nil (hnone r' hcapture.clock)
    | some found =>
      obtain ⟨process, environment⟩ := found
      obtain ⟨hcaptured, hgoes⟩ := hcapture
      have hinspected := watches_inspected hcaptured hgoes
      -- A member with a context of another run stops the sweep here.
      rcases hsome process environment r' hgoes.clock hcaptured with ⟨hrest, hcontext⟩ | ⟨e, herror⟩
      · exact .after hmembers hinspected (clean_inspected hcontext) hrest
      · dsimp only
        rw [herror]
        exact .error hmembers hinspected

/-! ## The loops over the members -/

/-- A process that was captured in the group by the end of the run so far. -/
def CapturedBy (history : KernelHistory) (run : OrphanRun) (start stop : Nat)
    (process : NativeProcess) : Prop :=
  ∃ environment, history.Captured run start stop process environment

theorem CapturedBy.mono {start start' stop stop' : Nat} {process : NativeProcess}
    (h : CapturedBy history run start stop process) (hstart : start' ≤ start)
    (hstop : stop ≤ stop') : CapturedBy history run start' stop' process := by
  obtain ⟨environment, hcaptured⟩ := h
  exact ⟨environment, hcaptured.mono hstart hstop⟩

/-- A step that passes its test goes on. -/
theorem ofExcept_bind_ok {f : Unit → Orphan β} (r : Run Machine OrphanEvent) :
    ((ofExcept (.ok ()) : Orphan Unit) >>= f) history.others r = f () history.others r := rfl

theorem ofExcept_bind_error {f : Unit → Orphan β} (e : String) (r : Run Machine OrphanEvent) :
    ((ofExcept (.error e) : Orphan Unit) >>= f) history.others r = (.error e, r) := rfl

/-- The members that a sweep verifies were captured during it. -/
theorem sweeps_verifyMembers (pids : List Int) (r : Run Machine OrphanEvent) :
    Sweeps history run r (verifyMembers run pids history.others r) fun verified stop =>
      ∀ process ∈ verified, CapturedBy history run r.clock stop process := by
  induction pids generalizing r with
  | nil => exact .ok (by simp)
  | cons pid pids ih =>
    -- The rest of the list is captured from a later moment on.
    have hrest (r' : Run Machine OrphanEvent) (hclock : r.clock ≤ r'.clock) :
        Sweeps history run r' (verifyMembers run pids history.others r') fun verified stop =>
          ∀ process ∈ verified, CapturedBy history run r.clock stop process :=
      (ih r').mono fun verified stop _ hverified process hprocess =>
        (hverified process hprocess).mono hclock (Nat.le_refl _)
    rw [verifyMembers]
    refine sweeps_captureMember hrest fun process environment r' hclock hcaptured => ?_
    have hpush : Sweeps history run r' ((verifyMembers run pids >>= fun verified =>
        pure (process :: verified) : Orphan (List NativeProcess)) history.others r')
        fun verified stop => ∀ process ∈ verified, CapturedBy history run r.clock stop process := by
      refine (hrest r' hclock).bind fun verified r'' _ hlater hverified => .ok ?_
      intro other hother
      rcases List.mem_cons.mp hother with rfl | hmem
      · exact ⟨environment, hcaptured.mono (Nat.le_refl _) hlater⟩
      · exact hverified other hmem
    dsimp only
    by_cases hhas : hasContext environment = true
    · rw [if_pos hhas]
      cases hverify : verifyContext run environment ("Cannot control unverified member " ++
          toString pid ++ " of orphan group " ++ toString run.processGroup) with
      | error e => exact .inr ⟨e, rfl⟩
      | ok done => exact .inl ⟨hpush, fun _ => verifyContext_eq_ok hverify⟩
    · rw [if_neg hhas]
      exact .inl ⟨hpush, fun h => absurd h hhas⟩

/-- The anchor that is found carried the exact context. -/
theorem sweeps_firstAnchor (pids : List Int) (r : Run Machine OrphanEvent) :
    Sweeps history run r (firstAnchor run pids history.others r) fun found stop =>
      ∀ anchor, found = some anchor → history.Owned run stop anchor := by
  induction pids generalizing r with
  | nil =>
    refine .ok fun anchor h => ?_
    cases h
  | cons pid pids ih =>
    rw [firstAnchor]
    refine sweeps_captureMember (fun r' _ => ih r') fun process environment r' _ hcaptured => ?_
    dsimp only
    by_cases hhas : hasContext environment = true
    · rw [if_pos hhas]
      cases hverify : verifyContext run environment
          ("Cannot adopt orphan process " ++ toString pid) with
      | error e => exact .inr ⟨e, rfl⟩
      | ok done =>
        have hcontext := verifyContext_eq_ok hverify
        refine .inl ⟨?_, fun _ => hcontext⟩
        rw [ofExcept_bind_ok]
        refine (sweeps_call _ r').bind fun _ r₁ _ hclock₁ _ => ?_
        refine (sweeps_call _ r₁).bind fun current r₂ _ hclock₂ _ => ?_
        -- An anchor that is gone by now is passed over.
        cases current with
        | true =>
          refine .ok fun anchor hanchor => ?_
          obtain rfl := Option.some.inj hanchor
          exact .exact (hcaptured.mono (Nat.le_refl _) (Nat.le_trans hclock₁ hclock₂)) hcontext
        | false => exact ih r₂
    · rw [if_neg hhas]
      exact .inl ⟨ih r', fun h => absurd h hhas⟩

theorem sweeps_verifiedAnchor (r : Run Machine OrphanEvent) :
    Sweeps history run r (verifiedAnchor run history.others r) fun found stop =>
      ∀ anchor, found = some anchor → history.Owned run stop anchor :=
  (sweeps_call _ r).bind fun pids r' _ _ _ => sweeps_firstAnchor pids r'

/-- The members that are kept were captured while an owned anchor was in the group. -/
theorem sweeps_tryAnchors (anchors : List NativeProcess) (r : Run Machine OrphanEvent)
    (hanchors : ∀ anchor ∈ anchors, history.Owned run r.clock anchor) :
    Sweeps history run r (tryAnchors run anchors history.others r) fun found stop =>
      ∀ verified, found = some verified →
        ∀ process ∈ verified, history.Owned run stop process := by
  induction anchors generalizing r with
  | nil =>
    refine .ok fun verified h => ?_
    cases h
  | cons anchor anchors ih =>
    have hanchor := hanchors anchor List.mem_cons_self
    have hothers (r' : Run Machine OrphanEvent) (hclock : r.clock ≤ r'.clock) :=
      ih r' fun other hother => (hanchors other (List.mem_cons_of_mem _ hother)).mono hclock
    rw [tryAnchors]
    -- The members are captured between two moments at which the anchor is there.
    refine (sweeps_call _ r).bind fun current r₁ _ hclock₁ hcurrent => ?_
    cases current with
    | false => exact hothers r₁ hclock₁
    | true =>
      refine (sweeps_call _ r₁).bind fun pids r₂ _ hclock₂ _ => ?_
      refine (sweeps_verifyMembers pids r₂).bind fun verified r₃ _ hclock₃ hverified => ?_
      refine (sweeps_call _ r₃).bind fun still r₄ _ hclock₄ hstill => ?_
      cases still with
      | false => exact hothers r₄ (by omega)
      | true =>
        refine .ok fun kept hkept process hprocess => ?_
        obtain rfl := Option.some.inj hkept
        obtain ⟨environment, hcaptured⟩ := hverified process hprocess
        have hbefore := KernelHistory.has_of_isCurrent hcurrent.2
        have hafter := KernelHistory.has_of_isCurrent hstill.2
        have hstart : r.clock < r₂.clock := by omega
        have hstop : r₃.clock < r₄.clock := by omega
        exact .member hanchor (Nat.le_refl _) hstart (Nat.le_refl _) hstop hbefore hcaptured hafter

/-! ## The members that are kept -/

/-- Every member that the orphan keeps is owned. -/
def Holds (history : KernelHistory) (run : OrphanRun) (r : Run Machine OrphanEvent) : Prop :=
  ∀ process ∈ r.world.members, history.Owned run r.clock process

theorem Holds.of_members (h : Holds history run r) (hmembers : r'.world.members = r.world.members)
    (hclock : r.clock ≤ r'.clock) : Holds history run r' := by
  intro process hprocess
  rw [hmembers] at hprocess
  exact (h process hprocess).mono hclock

/-- A part of a sweep that may replace the members, whether it returns or fails. -/
structure Refreshes {α : Type} (history : KernelHistory) (run : OrphanRun)
    (r : Run Machine OrphanEvent) (out : Except String α × Run Machine OrphanEvent) : Prop where
  holds : Holds history run out.2
  watches : ∃ events, Watches history run r out.2 events ∧
    ∀ a, out.1 = .ok a → Clean run events

section Refreshes

variable {out : Except String α × Run Machine OrphanEvent} {post : α → Nat → Prop} {a : α}

theorem Refreshes.ok (h : Holds history run r) : Refreshes history run r (.ok a, r) :=
  ⟨h, [], .refl r, fun _ _ => clean_nil⟩

theorem Refreshes.error {e : String} (h : Holds history run r) :
    Refreshes history run r ((.error e, r) : Except String α × Run Machine OrphanEvent) :=
  ⟨h, [], .refl r, fun _ _ => clean_nil⟩

theorem Refreshes.after (hwatches : Watches history run r r' events) (hclean : Clean run events)
    (h : Refreshes history run r' out) : Refreshes history run r out := by
  obtain ⟨more, hmore, hpost⟩ := h.watches
  exact ⟨h.holds, events ++ more, hwatches.trans hmore, fun a ha => hclean.append (hpost a ha)⟩

theorem Refreshes.bind {p : Orphan α} {f : α → Orphan β}
    (hp : Refreshes history run r (p history.others r))
    (hf : ∀ a r', p history.others r = (.ok a, r') → Holds history run r' →
      Refreshes history run r' (f a history.others r')) :
    Refreshes history run r ((p >>= f) history.others r) := by
  rw [bind_apply]
  rcases hrun : p history.others r with ⟨result, r'⟩
  obtain ⟨hholds, events, hwatches, hclean⟩ := hp
  rw [hrun] at hholds hwatches hclean
  cases result with
  | error e => exact ⟨hholds, events, hwatches, fun b hb => by cases hb⟩
  | ok a => exact .after hwatches (hclean a rfl) (hf a r' hrun hholds)

/-- After a part that only inspects. -/
theorem Sweeps.refreshes {p : Orphan α} {f : α → Orphan β} (h : Holds history run r)
    (hp : Sweeps history run r (p history.others r) post)
    (hf : ∀ a r', r.clock ≤ r'.clock → post a r'.clock → Holds history run r' →
      Refreshes history run r' (f a history.others r')) :
    Refreshes history run r ((p >>= f) history.others r) := by
  rw [bind_apply]
  rcases hrun : p history.others r with ⟨result, r'⟩
  have hclock := hp.clock
  obtain ⟨hmembers, events, hwatches, hok⟩ := hp
  rw [hrun] at hmembers hwatches hok hclock
  have hholds := h.of_members hmembers hclock
  cases result with
  | error e => exact ⟨hholds, events, hwatches, fun b hb => by cases hb⟩
  | ok a => exact .after hwatches (hok a rfl).1 (hf a r' hclock (hok a rfl).2 hholds)

end Refreshes

theorem sweeps_keptMembers (r : Run Machine OrphanEvent) :
    Sweeps history run r (keptMembers history.others r) fun members _ =>
      members = r.world.members := by
  have happly : keptMembers history.others r = (.ok r.world.members, Orphan.next history r) := by
    show (Except.ok r.world.members, (⟨r.clock + 1, _, r.log ++ []⟩ : Run Machine OrphanEvent)) = _
    rw [List.append_nil]
    rfl
  rw [happly]
  exact .next (.ok rfl)

/-- The run after its members were replaced. -/
theorem keepMembers_bind {f : Unit → Orphan β} (members : List NativeProcess)
    (hmembers : ∀ process ∈ members, history.Owned run r.clock process)
    (hf : ∀ r', Holds history run r' → Refreshes history run r' (f () history.others r')) :
    Refreshes history run r ((keepMembers members >>= f) history.others r) := by
  let kept : Run Machine OrphanEvent :=
    ⟨r.clock + 1, { history.others r.clock r.world with members := members }, r.log ++ []⟩
  have hgoes : Goes r kept [] := ⟨Nat.le_succ _, rfl⟩
  have hholds : Holds history run kept := by
    intro process hprocess
    exact (hmembers process hprocess).mono (Nat.le_succ _)
  rw [bind_apply]
  exact .after (.of_goes hgoes) clean_nil (hf kept hholds)

theorem refreshes_attemptRefresh (h : Holds history run r) :
    Refreshes history run r (attemptRefresh run history.others r) := by
  refine (sweeps_keptMembers r).refreshes h fun members r₁ hclock hmembers hholds => ?_
  have hanchors : ∀ anchor ∈ members, history.Owned run r₁.clock anchor := by
    intro anchor hanchor
    rw [hmembers] at hanchor
    exact (h anchor hanchor).mono hclock
  refine (sweeps_tryAnchors members r₁ hanchors).refreshes hholds
    fun found r₂ _ hfound hholds₂ => ?_
  cases found with
  | none => exact .ok hholds₂
  | some verified => exact keepMembers_bind verified (hfound verified rfl) fun r₃ hholds₃ => .ok hholds₃

theorem refreshes_refreshMembers (h : Holds history run r) :
    Refreshes history run r (refreshMembers run history.others r) := by
  refine (refreshes_attemptRefresh h).bind fun anchored r₁ _ hholds => ?_
  cases anchored with
  | true => exact .ok hholds
  | false =>
    refine (sweeps_verifiedAnchor r₁).refreshes hholds fun found r₂ _ hfound hholds₂ => ?_
    cases found with
    | none => exact .error hholds₂
    | some anchor =>
      have hanchor : ∀ process ∈ [anchor], history.Owned run r₂.clock process := by
        intro process hprocess
        rw [List.mem_singleton.mp hprocess]
        exact hfound anchor rfl
      refine keepMembers_bind [anchor] hanchor fun r₃ hholds₃ => ?_
      refine (refreshes_attemptRefresh hholds₃).bind fun again r₄ _ hholds₄ => ?_
      cases again with
      | true => exact .ok hholds₄
      | false => exact .error hholds₄

end Orphan

end Clt
