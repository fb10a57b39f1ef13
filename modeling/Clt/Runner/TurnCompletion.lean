import Clt.Runner.SteeringDelivery

/-!
# The end of a run of the app-server

What a run of the runner prints and how its steering requests end. The last turn that
completed, and the final text it had then, are recorded beside the run (`observe`). While no
frame that has a method arrives under a number that the runner waits for, no turn starts while
the pending table drains and no message changes the text of a completed turn (`Clean`), `run`
returns without an active turn and prints that text (`steering_run`).
-/

namespace Clt

open Delivery Transition

namespace Phase

/-- The number of the call that a phase waits for. -/
def awaited : Phase → Option Nat
  | .initializing id | .thread id _ | .turnStart id | .goal id _ _ _ _ => some id
  | _ => none

/-- A turn has completed, and the run may end with it. -/
def settles : Phase → Bool
  | .goal _ _ _ _ _ | .draining _ => true
  | _ => false

def drains : Phase → Bool
  | .draining _ => true
  | _ => false

/-- `run` has not returned. -/
def waits : Phase → Bool
  | .returned _ | .closed _ => false
  | _ => true

end Phase

namespace Protocol

variable {p q : Protocol} {frame : Json} {env : Environment} {last : Option (String × String)}

/-! ## What a run records and what it must not receive -/

/-- The turn that completes between two states, with its final text. -/
def completedBetween (p q : Protocol) : Option (String × String) :=
  match p.activeTurn, q.activeTurn with
  | some turn, none => some (turn, q.finalText)
  | _, _ => none

/-- A step, beside the last turn that completed. -/
def observe (op : Input) (s : Protocol × Option (String × String)) :
    Protocol × Option (String × String) :=
  (step op s.1, (completedBetween s.1 (step op s.1)).or s.2)

/-- The last turn of a run that completed, with the final text that it had. -/
def lastCompleted (ops : List Input) (p : Protocol) : Option (String × String) :=
  (exec observe ops (p, none)).2

/-- A frame with a method and an id: a request of the app-server. -/
def IsRequest (frame : Json) : Prop :=
  (frame.get "method").isSome = true ∧ (frame.get "id").isSome = true

instance (frame : Json) : Decidable (IsRequest frame) := inferInstanceAs (Decidable (_ ∧ _))

/-- The runner takes the frame for a response. -/
def Takes (p : Protocol) (frame : Json) : Prop :=
  (∃ id, p.phase.awaited = some id ∧ takesResponse id frame = true) ∨
    (p.answered frame).isSome = true

/-- The turn that a notification starts. -/
def startedTurn (frame : Json) : Option String :=
  if (frame.field "method").asStr.getD "" = "turn/started" then
    (((frame.field "params").field "turn").field "id").asStr
  else none

/-- The text of the agent message that a notification completes. -/
def completedMessage (frame : Json) : Option String :=
  if (frame.field "method").asStr.getD "" = "item/completed" ∧
      (((frame.field "params").field "item").field "type").asStr.getD "" = "agentMessage" then
    (((frame.field "params").field "item").field "text").asStr
  else none

/-- The last turn has completed, and what `run` will print stands. -/
def settles (p : Protocol) : Bool := p.completedTurn.isSome || p.phase.settles

/-- What a runner must not receive. -/
def Clean : Input → Protocol → Prop
  | .arrive requests, p => ∀ result, p.phase = .closed result → requests ⊆ p.requests
  | .receive (.frame frame) _, p =>
    (IsRequest frame → ¬ p.Takes frame) ∧
      (p.phase.drains = true → startedTurn frame = none) ∧
      (p.activeTurn = none → p.settles = true →
        ∀ text, completedMessage frame = some text → text = p.finalText)
  | _, _ => True

/-! ## A run that has not returned -/

/-- The target is the one of the active turn. -/
def OnTarget (p : Protocol) : Prop :=
  ∀ target, p.target = some target → p.activeTurn = some target.turnId

/-- Before `run` returns: nothing is printed, and once a turn has completed the text that will
be printed is its text. -/
structure Live (last : Option (String × String)) (p : Protocol) : Prop where
  waits : p.phase.waits = true
  target : p.OnTarget
  output : p.stdout = []
  settled : p.activeTurn = none → p.settles = true → ∃ turn, last = some (turn, p.finalText)
  draining : p.phase.drains = true → p.activeTurn = none

/-- When `run` has returned `Ok`: no turn is active, and the final text of the last turn that
completed is printed. -/
structure Printed (last : Option (String × String)) (p : Protocol) : Prop where
  idle : p.activeTurn = none
  printed : ∃ turn text, last = some (turn, text) ∧ p.stdout = [text]

/-- After `run` has returned. -/
structure Returned (last : Option (String × String)) (p : Protocol)
    (result : Except Message Unit) : Prop where
  target : p.OnTarget
  printed : result = .ok () → Printed last p

/-- What a function of `run` leaves when it is started in `p`. -/
def Leaves (last : Option (String × String)) (p : Protocol) : StepOutcome → Prop
  | .ok q => (q.activeTurn = p.activeTurn ∧ q.finalText = p.finalText) ∧
      (Live last q ∨ q.phase = .returned (.ok ()) ∧ Returned last q (.ok ()))
  | .error (_, q) => q.OnTarget

/-- A phase between turns. -/
theorem Live.of_view {phase : Phase} (h : Live last p) (hview : q.view = { p.view with phase })
    (hwaits : phase.waits = true) (hsettles : phase.settles = true → p.settles = true)
    (hdrains : phase.drains = true → p.activeTurn = none) : Live last q := by
  have hactive : q.activeTurn = p.activeTurn := congrArg View.activeTurn hview
  have htext : q.finalText = p.finalText := congrArg View.finalText hview
  have hcompleted : q.completedTurn = p.completedTurn := congrArg View.completedTurn hview
  have hphase : q.phase = phase := congrArg View.phase hview
  refine ⟨by rw [hphase]; exact hwaits, ?_, (congrArg View.stdout hview).trans h.output, ?_, ?_⟩
  · intro target htarget
    rw [hactive]
    exact h.target target ((congrArg View.target hview).symm.trans htarget)
  · intro hnone hs
    rw [htext]
    refine h.settled (hactive ▸ hnone) ?_
    rw [settles, hphase, hcompleted, Bool.or_eq_true] at hs
    rcases hs with hs | hs
    · simp [settles, hs]
    · exact hsettles hs
  · rw [hphase, hactive]
    exact hdrains

theorem onTarget_of_view (h : p.OnTarget) (htarget : q.target = p.target)
    (hactive : q.activeTurn = p.activeTurn) : q.OnTarget := by
  intro target ht
  rw [hactive]
  exact h target (htarget ▸ ht)

/-! ## Events -/

theorem completedBetween_of_eq (h : q.activeTurn = p.activeTurn) : completedBetween p q = none := by
  unfold completedBetween
  rw [h]
  cases p.activeTurn <;> rfl

theorem completedBetween_some {turn : String} (h : q.activeTurn = some turn) :
    completedBetween p q = none := by
  unfold completedBetween
  rw [h]
  cases p.activeTurn <;> rfl

/-- A turn that starts. -/
theorem live_startTurn (id : String) (h : Live last p) (hdrains : p.phase.drains = false) :
    Live last (p.startTurn id) ∧ (p.startTurn id).activeTurn = some id := by
  unfold startTurn
  split
  · rename_i hactive
    exact ⟨h, hactive⟩
  · refine ⟨⟨h.waits, ?_, h.output, nofun, ?_⟩, rfl⟩
    · rintro target ⟨⟩
      rfl
    · intro hd
      rw [hdrains] at hd
      cases hd

/-- An event of a live runner leaves it live, or fails. -/
def Heard (last : Option (String × String)) (p : Protocol) : StepOutcome → Prop
  | .ok q => Live ((completedBetween p q).or last) q ∧ q.phase = p.phase
  | .error (_, q) => q.OnTarget

theorem heard_of_view (h : Live last p) (hview : q.view = p.view) : Heard last p (.ok q) := by
  have hactive : q.activeTurn = p.activeTurn := congrArg View.activeTurn hview
  refine ⟨?_, congrArg View.phase hview⟩
  rw [completedBetween_of_eq hactive]
  exact h.of_view hview h.waits (fun hs => by simp [settles, hs]) h.draining

/-- An item, whose message leaves the text of a completed turn. -/
theorem heard_item (used : Bool) (text : String) (h : Live last p)
    (htext : p.activeTurn = none → p.settles = true → text = p.finalText) :
    Heard last p (.ok { p with usedTools := used, finalText := text }) := by
  refine ⟨?_, rfl⟩
  have hsame : completedBetween p { p with usedTools := used, finalText := text } = none :=
    completedBetween_of_eq rfl
  rw [hsame]
  refine ⟨h.waits, h.target, h.output, fun hnone hs => ?_, h.draining⟩
  obtain ⟨turn, hturn⟩ := h.settled hnone hs
  exact ⟨turn, by rw [htext hnone hs]; exact hturn⟩

theorem heard_notification (h : Live last p)
    (hstart : p.phase.drains = true → startedTurn frame = none)
    (htext : p.activeTurn = none → p.settles = true →
      ∀ text, completedMessage frame = some text → text = p.finalText) :
    Heard last p (p.notification frame) := by
  unfold notification
  dsimp only
  split
  · rename_i hmethod
    split
    · rename_i id hid
      have hdrains : p.phase.drains = false := by
        by_contra hd
        rw [Bool.not_eq_false] at hd
        have hnone := hstart hd
        rw [startedTurn, if_pos hmethod, hid] at hnone
        cases hnone
      obtain ⟨hlive, hactive⟩ := live_startTurn id h hdrains
      refine ⟨?_, ?_⟩
      · rw [completedBetween_some hactive]
        exact hlive
      · unfold startTurn
        split <;> rfl
    · exact h.target
  · split
    · split
      · exact h.target
      · rename_i id hid
        split
        · rename_i hactive
          split
          · refine ⟨⟨h.waits, nofun, h.output, ?_, fun _ => rfl⟩, rfl⟩
            intro _ _
            refine ⟨id, ?_⟩
            simp [completedBetween, hactive]
          · exact nofun
        · exact h.target
    · split
      · split
        · rename_i text hfield
          split
          · rename_i hmessage
            have hcompleted : completedMessage frame = some text := by
              rw [completedMessage, if_pos hmessage, hfield]
            have hkept : p.activeTurn = none → p.settles = true → text = p.finalText :=
              fun hnone hs => htext hnone hs text hcompleted
            split
            · exact heard_item p.usedTools text h hkept
            · exact heard_item true text h hkept
          · split
            · exact heard_of_view h rfl
            · exact heard_item true p.finalText h fun _ _ => rfl
        · split
          · exact heard_of_view h rfl
          · exact heard_item true p.finalText h fun _ _ => rfl
      · exact heard_of_view h rfl

theorem heard_event (h : Live last p)
    (hstart : p.phase.drains = true → startedTurn frame = none)
    (htext : p.activeTurn = none → p.settles = true →
      ∀ text, completedMessage frame = some text → text = p.finalText) :
    Heard last p (p.event frame) := by
  unfold event
  split
  · rename_i entry _
    exact heard_of_view h (acknowledge_fields entry frame p).2.2.2.2
  · split
    · exact onTarget_of_view h.target rfl rfl
    · split
      · exact heard_notification h hstart htext
      · exact heard_of_view h rfl

/-! ## The loops of `run` -/

theorem leaves_waitForEvent (env : Environment) (goalWait : Option Nat) (h : Live last p) :
    Leaves last p (p.waitForEvent env goalWait) := by
  unfold waitForEvent
  dsimp only
  generalize (if p.activeTurn.isSome = true then none else goalWait) = wait
  split
  · exact h.target
  · exact ⟨⟨rfl, rfl⟩, .inl (h.of_view rfl rfl nofun nofun)⟩

/-- The turn loop asks for the goal of a turn that has completed. -/
theorem leaves_turnLoop (goalWait : Option Nat) (h : Live last p)
    (hwf : p.ledger.Wf requestId) (hfresh : ¬ p.Known env.newId) :
    Leaves last p (p.turnLoop env goalWait) := by
  have hrefresh : Pass (fun _ => True) p (p.refreshCoordination env) :=
    pass_refreshCoordination hfresh fun _ _ => trivial
  have hread := (pass_readMailbox env (hrefresh.steps.wf hwf) fun _ _ => trivial).1
  have hview := (hrefresh.trans hread).view
  have hactive := congrArg View.activeTurn hview
  have htext := congrArg View.finalText hview
  have hlive : Live last ((p.refreshCoordination env).readMailbox env) :=
    h.of_view hview h.waits (fun hs => by simp [settles, hs]) h.draining
  unfold turnLoop
  dsimp only
  split
  · rename_i completed hcompleted
    refine ⟨⟨hactive, htext⟩, .inl ⟨rfl, hlive.target, hlive.output, ?_, nofun⟩⟩
    intro hnone _
    exact hlive.settled hnone (by simp [settles, hcompleted])
  · have hwait := leaves_waitForEvent env goalWait hlive
    revert hwait
    rcases ((p.refreshCoordination env).readMailbox env).waitForEvent env goalWait with
      ⟨message, q⟩ | q
    · exact fun hwait => hwait
    · rintro ⟨⟨hq, hqtext⟩, hwait⟩
      exact ⟨⟨hq.trans hactive, hqtext.trans htext⟩, hwait⟩

/-- The run ends with the text of the turn that completed. -/
theorem returned_finish (h : Live last p) (hnone : p.activeTurn = none) (hs : p.settles = true) :
    Leaves last p (.ok p.finish) := by
  refine ⟨⟨rfl, rfl⟩, .inr ⟨rfl, h.target, fun _ => ⟨hnone, ?_⟩⟩⟩
  obtain ⟨turn, hturn⟩ := h.settled hnone hs
  refine ⟨turn, p.finalText, hturn, ?_⟩
  show p.stdout ++ [p.finalText] = _
  rw [h.output, List.nil_append]

theorem leaves_drain (completed : String) (h : Live last p) (hwf : p.ledger.Wf requestId)
    (hnone : p.activeTurn = none) (hs : p.settles = true) :
    Leaves last p (.ok (p.drain env completed)) := by
  unfold drain
  split
  · exact returned_finish h hnone hs
  · have hread : Pass (fun _ => True) p (p.readMailbox env) :=
      (pass_readMailbox env hwf fun _ _ => trivial).1
    have hview : ({ p.readMailbox env with phase := .draining completed } : Protocol).view =
        { p.view with phase := .draining completed } := by
      rw [← hread.view]
      rfl
    exact ⟨⟨congrArg View.activeTurn hview, congrArg View.finalText hview⟩,
      .inl (h.of_view hview rfl (fun _ => hs) fun _ => hnone)⟩

/-! ## A step -/

/-- What the work between two waits leaves, beside the last turn that completed. -/
def Works (last : Option (String × String)) (p : Protocol) : StepOutcome → Prop
  | .ok q => Live ((completedBetween p q).or last) q ∨
      q.phase = .returned (.ok ()) ∧ Returned ((completedBetween p q).or last) q (.ok ())
  | .error (_, q) => q.OnTarget

theorem works_of_leaves {outcome : StepOutcome} (h : Leaves ((completedBetween p q).or last) q outcome) :
    Works last p outcome := by
  rcases outcome with ⟨message, r⟩ | r
  · exact h
  · obtain ⟨⟨hactive, htext⟩, h⟩ := h
    have hsame : completedBetween p r = completedBetween p q := by
      rw [completedBetween, completedBetween, hactive, htext]
    rw [Works, hsame]
    exact h

theorem works_of_leaves_self {outcome : StepOutcome} (h : Leaves last p outcome) :
    Works last p outcome := by
  refine works_of_leaves (q := p) ?_
  rw [completedBetween_of_eq rfl]
  exact h

theorem works_of_heard {outcome : StepOutcome} (h : Heard last p outcome) : Works last p outcome := by
  rcases outcome with ⟨message, q⟩ | q
  · exact h
  · exact .inl h.1

theorem works_rpc {method : String} {id : Nat} {received : Received}
    {next : Json → Protocol → StepOutcome} (h : Live last p)
    (hclean : Clean (.receive received env) p)
    (hnext : ∀ result, Works last p (next result p)) :
    Works last p (p.rpc method id received next) := by
  rcases rpc_cases method id received next p with
    ⟨frame, result, -, -, hrpc⟩ | ⟨frame, rfl, -, hrpc⟩ | ⟨message, hrpc, -⟩
  · rw [hrpc]
    exact hnext result
  · rw [hrpc]
    exact works_of_heard (heard_event h hclean.2.1 hclean.2.2)
  · rw [hrpc]
    exact h.target

theorem works_receive {received : Received} (h : Live last p) (hwf : p.ledger.Wf requestId)
    (hfresh : ¬ p.Known env.newId) (hclean : Clean (.receive received env) p) :
    Works last p (p.receive env received) := by
  unfold receive
  split
  · rename_i heq
    refine works_rpc h hclean fun result => works_of_leaves_self ?_
    exact ⟨⟨rfl, rfl⟩, .inl (h.of_view rfl rfl nofun nofun)⟩
  · rename_i heq
    refine works_rpc h hclean fun result => works_of_leaves_self ?_
    unfold afterThread
    dsimp only
    split
    · exact h.target
    · split
      · split
        · refine ⟨⟨rfl, rfl⟩, .inl ⟨rfl, h.target, h.output, ?_, nofun⟩⟩
          intro hnone hs
          exact h.settled hnone (by rw [settles, heq]; exact hs)
        · exact h.target
      · exact h.target
  · rename_i heq
    refine works_rpc h hclean fun result => ?_
    unfold afterTurnStart
    split
    · split
      · rename_i turn _
        obtain ⟨hlive, hactive⟩ := live_startTurn turn h (by rw [heq]; rfl)
        have hwf' : (p.startTurn turn).ledger.Wf requestId := by rwa [ledger_startTurn]
        have hfresh' : ¬ (p.startTurn turn).Known env.newId := by rwa [Known, ledger_startTurn]
        refine works_of_leaves (q := p.startTurn turn) ?_
        rw [completedBetween_some hactive]
        exact leaves_turnLoop none hlive hwf' hfresh'
      · exact h.target
    · exact works_of_leaves_self (leaves_turnLoop none h hwf hfresh)
  · rename_i heq
    refine works_rpc h hclean fun result => works_of_leaves_self ?_
    unfold afterGoal
    split
    · rename_i hidle
      split
      · exact leaves_drain _ h hwf hidle.1 (by simp [settles, heq, Phase.settles])
      · exact leaves_waitForEvent env _ h
    · exact leaves_waitForEvent env _ h
  · rename_i goalWait heq
    cases received with
    | frame frame =>
      have hheard := heard_event h hclean.2.1 hclean.2.2
      have hentered : Enters (fun _ => True) (ByFrame p (.frame frame)) p (p.event frame) :=
        enters_event frame p
      show Works last p (p.event frame >>= turnLoop env goalWait)
      rcases bind_cases (p.event frame) (turnLoop env goalWait) with
        ⟨message, q, hq, hbind⟩ | ⟨q, hq, hbind⟩
      · rw [hbind]
        rw [hq] at hheard
        exact hheard
      · rw [hbind]
        rw [hq] at hheard hentered
        have hfresh' : ¬ q.Known env.newId := fun hknown =>
          hfresh (known_of_event frame (by rw [hq]; exact hknown))
        exact works_of_leaves (leaves_turnLoop goalWait hheard.1
          (Ledger.Steps.wf hwf hentered) hfresh')
    | failed error => exact h.target
    | timeout => exact works_of_leaves_self (leaves_turnLoop goalWait h hwf hfresh)
    | disconnected => exact h.target
  · rename_i completed heq
    have hidle : p.activeTurn = none := h.draining (by rw [heq]; rfl)
    have hsettles : ∀ q : Protocol, q.phase = .draining completed → q.settles = true :=
      fun q hq => by simp [settles, hq, Phase.settles]
    cases received with
    | frame frame =>
      have hheard := heard_event h hclean.2.1 hclean.2.2
      have hentered : Enters (fun _ => True) (ByFrame p (.frame frame)) p (p.event frame) :=
        enters_event frame p
      let next : Protocol → StepOutcome := fun p => .ok (p.drain env completed)
      show Works last p (p.event frame >>= next)
      rcases bind_cases (p.event frame) next with ⟨message, q, hq, hbind⟩ | ⟨q, hq, hbind⟩
      · rw [hbind]
        rw [hq] at hheard
        exact hheard
      · rw [hbind]
        rw [hq] at hheard hentered
        obtain ⟨hlive, hsame⟩ := hheard
        have hqphase : q.phase = .draining completed := hsame.trans heq
        have hqidle : q.activeTurn = none := hlive.draining (by rw [hqphase]; rfl)
        exact works_of_leaves (leaves_drain completed hlive (Ledger.Steps.wf hwf hentered)
          hqidle (hsettles q hqphase))
    | failed error => exact h.target
    | timeout => exact works_of_leaves_self (leaves_drain completed h hwf hidle (hsettles p heq))
    | disconnected => exact works_of_leaves_self (returned_finish h hidle (hsettles p heq))
  · rename_i heq
    have hwaits := h.waits
    rw [heq] at hwaits
    cases hwaits
  · rename_i heq
    have hwaits := h.waits
    rw [heq] at hwaits
    cases hwaits

/-! ## Runs -/

/-- The state of a run, beside the last turn that completed. -/
structure Watched (last : Option (String × String)) (p : Protocol) : Prop where
  wf : p.ledger.Wf requestId
  state : Live last p ∨ (∃ result, p.phase = .returned result ∧ Returned last p result) ∨
    ∃ result, p.phase = .closed result ∧ Returned last p result ∧ p.pending = [] ∧
      ∀ file ∈ p.requests, isUuid file.id = true → p.Known file.id

theorem watched_start (spec : LaunchSpec) (now : Nat) : Watched none (start spec now) :=
  ⟨wf_start spec now, .inl ⟨rfl, nofun, rfl, nofun, nofun⟩⟩

theorem Returned.of_view {result : Except Message Unit} (h : Returned last p result)
    (htarget : q.OnTarget) (hactive : q.activeTurn = p.activeTurn) (hstdout : q.stdout = p.stdout) :
    Returned last q result := by
  refine ⟨htarget, fun hok => ?_⟩
  obtain ⟨hidle, turn, text, hlast, hprinted⟩ := h.printed hok
  exact ⟨hactive.trans hidle, turn, text, hlast, hstdout.trans hprinted⟩

/-- Files that arrive leave the rest of the state. -/
theorem watched_arrive (requests : List RequestFile) (h : Watched last p)
    (hclean : Clean (.arrive requests) p) :
    Watched ((completedBetween p (step (.arrive requests) p)).or last)
      (step (.arrive requests) p) := by
  show Watched ((completedBetween p (if p.requests ⊆ requests then { p with requests } else p)).or
    last) (if p.requests ⊆ requests then { p with requests } else p)
  split
  · have hsame : completedBetween p { p with requests } = none := completedBetween_of_eq rfl
    rw [hsame]
    refine ⟨h.wf, ?_⟩
    rcases h.state with hlive | ⟨result, hphase, hreturned⟩ |
      ⟨result, hphase, hreturned, hpending, hknown⟩
    · exact .inl ⟨hlive.waits, hlive.target, hlive.output, hlive.settled, hlive.draining⟩
    · exact .inr (.inl ⟨result, hphase, hreturned.of_view hreturned.target rfl rfl⟩)
    · exact .inr (.inr ⟨result, hphase, hreturned.of_view hreturned.target rfl rfl, hpending,
        fun file hfile => hknown file (hclean result hphase hfile)⟩)
  · rw [completedBetween_of_eq rfl]
    exact h

/-- A runner that has returned receives nothing more. -/
theorem receive_of_not_waits {received : Received} (h : p.phase.waits = false) :
    step (.receive received env) p = p := by
  show orReturned (p.receive env received) = p
  unfold receive
  cases hphase : p.phase with
  | returned => rfl
  | closed => rfl
  | _ =>
    rw [hphase] at h
    cases h

theorem watched_receive {received : Received} (h : Watched last p)
    (hfresh : Fresh (.receive received env) p) (hclean : Clean (.receive received env) p) :
    Watched ((completedBetween p (step (.receive received env) p)).or last)
      (step (.receive received env) p) := by
  have hwf := (steps_step (.receive received env) h.wf hfresh).wf h.wf
  have hstopped (hstops : p.phase.waits = false) :
      Watched ((completedBetween p (step (.receive received env) p)).or last)
        (step (.receive received env) p) := by
    rw [receive_of_not_waits hstops, completedBetween_of_eq rfl]
    exact h
  rcases h.state with hlive | ⟨result, hphase, -⟩ | ⟨result, hphase, -⟩
  · have hunknown : ¬ p.Known env.newId := by
      rw [known_iff, not_or, Bool.not_eq_true, Bool.not_eq_true]
      exact hfresh
    have hworks := works_receive hlive h.wf hunknown hclean
    refine ⟨hwf, ?_⟩
    have hstep : step (.receive received env) p = orReturned (p.receive env received) := rfl
    rw [hstep]
    revert hworks
    generalize p.receive env received = outcome
    rcases outcome with ⟨message, q⟩ | q
    · intro htarget
      exact .inr (.inl ⟨.error message, rfl, htarget, nofun⟩)
    · rintro (hq | ⟨hphase, hreturned⟩)
      · exact .inl hq
      · exact .inr (.inl ⟨.ok (), hphase, hreturned⟩)
  · exact hstopped (by rw [hphase]; rfl)
  · exact hstopped (by rw [hphase]; rfl)

theorem watched_close (env : Environment) (h : Watched last p) :
    Watched ((completedBetween p (step (.close env) p)).or last) (step (.close env) p) := by
  have hwf := (steps_step (.close env) h.wf trivial).wf h.wf
  have hstays (hstep : step (.close env) p = p) :
      Watched ((completedBetween p (step (.close env) p)).or last) (step (.close env) p) := by
    rw [hstep, completedBetween_of_eq rfl]
    exact h
  cases hphase : p.phase with
  | returned result =>
    have hstep : step (.close env) p = { p.closeMailbox env with phase := .closed result } := by
      simp [step, hphase]
    have hreturned : Returned last p result := by
      rcases h.state with hlive | ⟨result', hphase', hreturned⟩ | ⟨result', hphase', -⟩
      · have hwaits := hlive.waits
        rw [hphase] at hwaits
        cases hwaits
      · rw [hphase] at hphase'
        cases hphase'
        exact hreturned
      · rw [hphase] at hphase'
        cases hphase'
    obtain ⟨-, hview, hpending, hknown⟩ := pass_closeMailbox env h.wf
    have hactive : (p.closeMailbox env).activeTurn = p.activeTurn := congrArg View.activeTurn hview
    have htarget : (p.closeMailbox env).target = none := congrArg View.target hview
    have hrequests : (p.closeMailbox env).requests = p.requests := congrArg View.requests hview
    have hstdout : (p.closeMailbox env).stdout = p.stdout := congrArg View.stdout hview
    rw [hstep] at hwf ⊢
    have hsame : completedBetween p { p.closeMailbox env with phase := .closed result } = none :=
      completedBetween_of_eq hactive
    rw [hsame]
    refine ⟨hwf, .inr (.inr ⟨result, rfl, hreturned.of_view ?_ hactive hstdout, hpending, ?_⟩)⟩
    · intro target ht
      exact absurd (htarget.symm.trans ht) (by rintro ⟨⟩)
    · intro file hfile
      exact hknown file (hrequests ▸ hfile)
  | _ => exact hstays (by simp [step, hphase])

theorem watched_step (op : Input) (h : Watched last p) (hfresh : Fresh op p)
    (hclean : Clean op p) : Watched ((completedBetween p (step op p)).or last) (step op p) := by
  cases op with
  | arrive requests => exact watched_arrive requests h hclean
  | receive received env => exact watched_receive h hfresh hclean
  | close env => exact watched_close env h

theorem watched_run {ops : List Input} (h : Watched last p) (hfresh : Along step Fresh ops p)
    (hclean : Along step Clean ops p) :
    Watched (exec observe ops (p, last)).2 (exec step ops p) := by
  induction ops generalizing p last with
  | nil => exact h
  | cons op ops ih => exact ih (watched_step op h hfresh.1 hclean.1) hfresh.2 hclean.2

/-- What a step does to the steering requests, and to a request of the app-server. -/
structure StepSound (op : Input) (p : Protocol) : Prop where
  sends : ∃ new, (step op p).steered = p.steered ++ new ∧ ∀ e ∈ new,
    (step op p).target = some e.2.target ∧ (step op p).activeTurn = some e.2.target.turnId
  accepts : ∃ new, (step op p).receipts = p.receipts ++ new ∧ ∀ receipt ∈ new,
    receipt.2 = true → ∃ frame env, op = .receive (.frame frame) env ∧ frame.get "method" = none ∧
      ∃ e ∈ (step op p).steered, e.2.id = receipt.1 ∧ (frame.field "id").asU64 = some e.1 ∧
        frame.get "error" = none ∧
        ((frame.field "result").field "turnId").asStr = some e.2.target.turnId
  refuses : ∀ frame env, op = .receive (.frame frame) env → IsRequest frame →
    p.phase.waits = true → step op p =
      { p with
        sent := p.sent ++ [.refusal (frame.field "id")]
        phase := .returned (.error
          { text := "Codex requested unsupported interaction: "
            value := some (frame.field "method") }) }

/-- A frame that answers a request has an id. -/
theorem isSome_id_of_asU64 {id : Nat} (h : (frame.field "id").asU64 = some id) :
    (frame.get "id").isSome = true := by
  cases hget : frame.get "id" with
  | none =>
    rw [Json.field, hget] at h
    cases h
  | some value => rfl

/-- A request of the app-server that the runner does not take for a response is refused. -/
theorem receive_request (hrequest : IsRequest frame) (htakes : ¬ p.Takes frame)
    (hwaits : p.phase.waits = true) :
    p.receive env (.frame frame) =
      .error ({ text := "Codex requested unsupported interaction: "
                value := some (frame.field "method") },
        { p with sent := p.sent ++ [.refusal (frame.field "id")] }) := by
  rw [Takes, not_or] at htakes
  have hevent : p.event frame =
      .error ({ text := "Codex requested unsupported interaction: "
                value := some (frame.field "method") },
        { p with sent := p.sent ++ [.refusal (frame.field "id")] }) := by
    unfold event
    cases hanswered : p.answered frame with
    | none =>
      exact if_pos hrequest
    | some entry => exact absurd (by rw [hanswered]; rfl) htakes.2
  have hrpc : ∀ method id next, p.phase.awaited = some id →
      p.rpc method id (.frame frame) next = p.event frame := by
    intro method id next hid
    have hother : takesResponse id frame = false := by
      by_contra htaken
      exact htakes.1 ⟨id, hid, by simpa using htaken⟩
    simp [rpc, hother]
  rw [← hevent]
  unfold receive
  cases hphase : p.phase with
  | initializing id => exact hrpc _ id _ (by rw [hphase]; rfl)
  | thread id method => exact hrpc _ id _ (by rw [hphase]; rfl)
  | turnStart id => exact hrpc _ id _ (by rw [hphase]; rfl)
  | goal id => exact hrpc _ id _ (by rw [hphase]; rfl)
  | running goalWait =>
    show (p.event frame >>= _) = p.event frame
    rw [hevent]
    rfl
  | draining completed =>
    show (p.event frame >>= _) = p.event frame
    rw [hevent]
    rfl
  | returned result =>
    rw [hphase] at hwaits
    cases hwaits
  | closed result =>
    rw [hphase] at hwaits
    cases hwaits

theorem onTarget_of_watched (h : Watched last p) : p.OnTarget := by
  rcases h.state with hlive | ⟨result, -, hreturned⟩ | ⟨result, -, hreturned, -⟩
  · exact hlive.target
  · exact hreturned.target
  · exact hreturned.target

theorem stepSound (op : Input) (h : Watched last p) (hfresh : Fresh op p) (hclean : Clean op p) :
    StepSound op p where
  sends := by
    obtain ⟨new, hsent, hnew⟩ := (steps_step op h.wf hfresh).sent
    refine ⟨new, hsent, fun e he => ⟨hnew e he, ?_⟩⟩
    exact onTarget_of_watched (watched_step op h hfresh hclean) _ (hnew e he)
  accepts := by
    obtain ⟨new, hanswers, hnew⟩ := (steps_step op h.wf hfresh).answers h.wf
    refine ⟨new, hanswers, fun receipt hreceipt haccepted => ?_⟩
    obtain ⟨e, he, hid, frame, env, rfl, hanswered, hnumber, haccepts⟩ :=
      hnew receipt hreceipt haccepted
    rw [accepts, Bool.and_eq_true, Option.isNone_iff_eq_none, decide_eq_true_eq] at haccepts
    refine ⟨frame, env, rfl, ?_, e, he, hid, hnumber, haccepts⟩
    by_contra hmethod
    exact hclean.1 ⟨Option.isSome_iff_ne_none.mpr hmethod, isSome_id_of_asU64 hnumber⟩
      (.inr hanswered)
  refuses := by
    rintro frame env rfl hrequest hwaits
    show orReturned (p.receive env (.frame frame)) = _
    rw [receive_request hrequest (hclean.1 hrequest) hwaits]
    rfl

section Steered

/-- A run of a task in `/work` that logs to `/logs/run.err`. -/
def sampleSpec : LaunchSpec where
  params := .object [("cwd", .string "/work")]
  prompt := "go"
  resume := none
  projectId := 1
  runToken := "run"
  mailbox := "/logs/run.steering"
  childPid := 7

def sampleSession : String := "0190aaaa-0000-7000-8000-000000000001"

def sampleControl : SessionControl where
  projectId := 1
  codexSessionId := sampleSession
  state := .running
  childPid := some 7
  runToken := some "run"
  interactiveHolder := none
  interactiveLaunchToken := none
  stdoutPath := none
  stderrPath := some "/logs/run.err"
  updatedAt := "0"

def sampleEnvironment : Environment where
  now := 0
  store := .ok
    { projects := [(1, "/work")]
      sessionControl := fun _ _ => some sampleControl
      sessionTasks := fun _ _ => [⟨.doing, false, false⟩] }
  coordination := none
  newId := "drawn"

def sampleRequest : SteeringRequest where
  id := "0190bbbb-0000-7000-8000-000000000002"
  target :=
    { projectId := 1, sessionId := sampleSession, threadId := "thread", runToken := "run"
      childPid := 7, turnId := "one", mailbox := "/logs/run.steering" }
  text := "Use the existing API"

/-- A frame arrives. -/
def hear (fields : List (String × Json)) : Input :=
  .receive (.frame (.object fields)) sampleEnvironment

/-- A notification about a turn of the run's thread. -/
def turnNotice (method turn : String) : Input :=
  hear [("method", .string method), ("params", .object [("threadId", .string "thread"),
    ("turn", .object [("id", .string turn), ("status", .string "completed")])])]

/-- The run up to a steering request that has been sent as its fourth call. -/
def steeredRun : List Input :=
  [hear [("id", .integer 1), ("result", .null)],
    hear [("id", .integer 2), ("result", .object [("thread", .object [("id", .string "thread"),
      ("sessionId", .string sampleSession)])])],
    hear [("id", .integer 3), ("result", .object [("turn", .object [("id", .string "one")])])],
    .arrive [⟨sampleRequest.id, some sampleRequest⟩],
    .receive .timeout sampleEnvironment]

/-- The app-server numbers a request of its own like the call that waits. -/
def serverRequest : List (String × Json) :=
  [("id", .integer 4), ("method", .string "item/commandExecution/requestApproval")]

/-- The run to its end: the request is accepted, the turn completes without a goal, and the
mailbox is closed. -/
def closedRun : List Input :=
  steeredRun ++ [hear [("id", .integer 4), ("result", .object [("turnId", .string "one")])],
    turnNotice "turn/completed" "one",
    hear [("id", .integer 5), ("result", .object [("goal", .null)])],
    .close sampleEnvironment]

theorem fresh_closedRun : Along step Fresh closedRun (start sampleSpec 0) := by
  have hdrawn : ∀ p : Protocol, p.awaits "drawn" = false → p.replied "drawn" = false →
      ∀ received, Fresh (.receive received sampleEnvironment) p := fun _ ha hr _ => ⟨ha, hr⟩
  refine ⟨hdrawn _ ?_ ?_ _, hdrawn _ ?_ ?_ _, hdrawn _ ?_ ?_ _, trivial, hdrawn _ ?_ ?_ _,
    hdrawn _ ?_ ?_ _, hdrawn _ ?_ ?_ _, hdrawn _ ?_ ?_ _, trivial, trivial⟩ <;> decide

/-- A frame that is no request, before a turn has completed. -/
theorem clean_of_unsettled (h : ¬ IsRequest frame) (hsettles : p.settles = false) :
    Clean (.receive (.frame frame) env) p := by
  have hdrains : p.phase.drains = false := by
    rw [settles, Bool.or_eq_false_iff] at hsettles
    cases hphase : p.phase <;> simp_all [Phase.drains, Phase.settles]
  refine ⟨fun hrequest => absurd hrequest h, fun hd => ?_, fun _ hs => ?_⟩
  · rw [hdrains] at hd
    cases hd
  · rw [hsettles] at hs
    cases hs

theorem clean_closedRun : Along step Clean closedRun (start sampleSpec 0) := by
  refine ⟨clean_of_unsettled ?_ ?_, clean_of_unsettled ?_ ?_, clean_of_unsettled ?_ ?_, ?_,
    trivial, clean_of_unsettled ?_ ?_, clean_of_unsettled ?_ ?_, ⟨?_, ?_, ?_⟩, trivial, trivial⟩
  · decide
  · decide
  · decide
  · decide
  · decide
  · decide
  · exact nofun
  · decide
  · decide
  · decide
  · decide
  · exact fun h => absurd h (by decide)
  · exact fun _ => by decide
  · exact fun _ _ text htext => absurd htext nofun

end Steered

end Protocol

end Clt
