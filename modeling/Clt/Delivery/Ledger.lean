import Mathlib.Data.List.Nodup
import Mathlib.Logic.Relation

/-!
# A ledger of deliveries

A sender that numbers its messages hands requests over and answers each of them. A request is
known once it waits for its answer or has one. The four entries of a ledger (`Ledger.Step`):
a number is spent on something else, an unknown request is delivered, a waiting one is
settled, an unknown id is rejected. Whatever the order of the entries, a request is delivered
at most once and answered at most once (`Ledger.Wf`), and once nothing waits every known id
has exactly one answer (`Ledger.Wf.answered_once`).

The entries carry the conditions under which a delivery and an acceptance are allowed, so
that a run of a program is related to its ledger by one chain of entries.
-/

namespace Delivery

open Relation

universe u v

variable {ι : Type u} {ρ : Type v}

/-- What has been handed over, what waits, what was answered, and the next number. -/
structure Ledger (ι : Type u) (ρ : Type v) where
  sent : List (Nat × ρ)
  pending : List (Nat × ρ)
  answers : List (ι × Bool)
  next : Nat

namespace Ledger

variable (key : ρ → ι)

/-- The id waits or has been answered. -/
def Known (l : Ledger ι ρ) (id : ι) : Prop :=
  id ∈ l.pending.map (fun e => key e.2) ∨ id ∈ l.answers.map Prod.fst

/-- One entry. `Deliverable` allows a delivery and `Acceptable` an answer that accepts. -/
inductive Step (Deliverable : ρ → Prop) (Acceptable : Nat × ρ → Prop) :
    Ledger ι ρ → Ledger ι ρ → Prop
  | number (l : Ledger ι ρ) : Step Deliverable Acceptable l { l with next := l.next + 1 }
  | deliver (l : Ledger ι ρ) (r : ρ) (unknown : ¬ l.Known key (key r)) (allowed : Deliverable r) :
      Step Deliverable Acceptable l
        { l with
          sent := l.sent ++ [(l.next, r)]
          pending := l.pending ++ [(l.next, r)]
          next := l.next + 1 }
  | settle (l : Ledger ι ρ) (e : Nat × ρ) (accepted : Bool) (waits : e ∈ l.pending)
      (allowed : accepted = true → Acceptable e) :
      Step Deliverable Acceptable l
        { l with
          pending := l.pending.filter fun e' => e'.1 ≠ e.1
          answers := l.answers ++ [(key e.2, accepted)] }
  | reject (l : Ledger ι ρ) (id : ι) (unknown : ¬ l.Known key id) :
      Step Deliverable Acceptable l { l with answers := l.answers ++ [(id, false)] }

/-- A chain of entries. -/
abbrev Steps (Deliverable : ρ → Prop) (Acceptable : Nat × ρ → Prop) :
    Ledger ι ρ → Ledger ι ρ → Prop :=
  ReflTransGen (Step key Deliverable Acceptable)

/-- A ledger that its entries have built. -/
structure Wf (l : Ledger ι ρ) : Prop where
  numbers : (l.pending.map Prod.fst).Nodup
  below : ∀ e ∈ l.pending, e.1 < l.next
  waiting : (l.pending.map fun e => key e.2).Nodup
  answered : (l.answers.map Prod.fst).Nodup
  apart : ∀ e ∈ l.pending, key e.2 ∉ l.answers.map Prod.fst
  once : (l.sent.map fun e => key e.2).Nodup
  known : ∀ e ∈ l.sent, l.Known key (key e.2)
  carried : ∀ e ∈ l.pending, e ∈ l.sent

variable {key} {Deliverable Deliverable' : ρ → Prop} {Acceptable Acceptable' : Nat × ρ → Prop}
  {l l' : Ledger ι ρ} {id : ι}

theorem Step.mono (hd : ∀ r, Deliverable r → Deliverable' r)
    (ha : ∀ e, Acceptable e → Acceptable' e) (h : Step key Deliverable Acceptable l l') :
    Step key Deliverable' Acceptable' l l' := by
  cases h with
  | number => exact .number l
  | deliver r unknown allowed => exact .deliver l r unknown (hd r allowed)
  | settle e accepted waits allowed => exact .settle l e accepted waits fun h => ha e (allowed h)
  | reject id unknown => exact .reject l id unknown

theorem Steps.mono (hd : ∀ r, Deliverable r → Deliverable' r)
    (ha : ∀ e, Acceptable e → Acceptable' e) (h : Steps key Deliverable Acceptable l l') :
    Steps key Deliverable' Acceptable' l l' :=
  ReflTransGen.mono (fun _ _ hstep => Step.mono hd ha hstep) _ _ h

/-! ## An id stays known -/

theorem Wf.eq_of_number (h : l.Wf key) {e e' : Nat × ρ} (he : e ∈ l.pending)
    (he' : e' ∈ l.pending) (hnumber : e'.1 = e.1) : e' = e :=
  List.inj_on_of_nodup_map h.numbers he' he hnumber

theorem Step.known (hl : l.Wf key) (h : Step key Deliverable Acceptable l l')
    (hid : l.Known key id) : l'.Known key id := by
  cases h with
  | number => exact hid
  | deliver r => exact hid.imp_left fun hid => by simp only [List.map_append, List.mem_append, hid, true_or]
  | reject => exact hid.imp_right fun hid => by simp only [List.map_append, List.mem_append, hid, true_or]
  | settle e accepted waits =>
    rcases hid with hid | hid
    · obtain ⟨e', he', rfl⟩ := List.mem_map.mp hid
      by_cases hnumber : e'.1 = e.1
      · rw [hl.eq_of_number waits he' hnumber]
        exact .inr (by simp)
      · have hkept : e' ∈ l.pending.filter fun e' => e'.1 ≠ e.1 :=
          List.mem_filter.mpr ⟨he', by simpa using hnumber⟩
        exact .inl (List.mem_map_of_mem (f := fun e : Nat × ρ => key e.2) hkept)
    · exact .inr (by simp only [List.map_append, List.mem_append, hid, true_or])

/-! ## The entries keep a ledger well formed -/

theorem nodup_concat {α : Type*} {as : List α} {a : α} (h : as.Nodup) (ha : a ∉ as) :
    (as ++ [a]).Nodup := by
  rw [List.nodup_append]
  refine ⟨h, List.nodup_singleton a, ?_⟩
  intro b hb c hc heq
  rw [List.mem_singleton.mp hc] at heq
  exact ha (heq ▸ hb)

theorem Wf.deliver {r : ρ} (h : l.Wf key) (unknown : ¬ l.Known key (key r))
    (hknown : ∀ id, l.Known key id → Known key
      { l with
        sent := l.sent ++ [(l.next, r)]
        pending := l.pending ++ [(l.next, r)]
        next := l.next + 1 } id) :
    Wf key
      { l with
        sent := l.sent ++ [(l.next, r)]
        pending := l.pending ++ [(l.next, r)]
        next := l.next + 1 } where
  numbers := by
    rw [List.map_append]
    refine nodup_concat h.numbers fun hmem => ?_
    obtain ⟨e, he, hnumber⟩ := List.mem_map.mp hmem
    exact absurd hnumber (Nat.ne_of_lt (h.below e he))
  below := by
    intro e he
    rcases List.mem_append.mp he with he | he
    · exact Nat.lt_succ_of_lt (h.below e he)
    · rw [List.mem_singleton.mp he]
      exact Nat.lt_succ_self l.next
  waiting := by
    rw [List.map_append]
    exact nodup_concat h.waiting fun hmem => unknown (.inl hmem)
  answered := h.answered
  apart := by
    intro e he
    rcases List.mem_append.mp he with he | he
    · exact h.apart e he
    · rw [List.mem_singleton.mp he]
      exact fun hmem => unknown (.inr hmem)
  once := by
    rw [List.map_append]
    refine nodup_concat h.once fun hmem => ?_
    -- A request that was handed over is known.
    obtain ⟨e, he, hkey⟩ := List.mem_map.mp hmem
    have hsent := h.known e he
    rw [hkey] at hsent
    exact unknown hsent
  known := by
    intro e he
    rcases List.mem_append.mp he with he | he
    · exact hknown _ (h.known e he)
    · rw [List.mem_singleton.mp he]
      exact .inl (by simp)
  carried := by
    intro e he
    rcases List.mem_append.mp he with he | he
    · exact List.mem_append_left _ (h.carried e he)
    · exact List.mem_append_right _ he

theorem Step.wf (hl : l.Wf key) (h : Step key Deliverable Acceptable l l') : l'.Wf key := by
  have hknown : ∀ id, l.Known key id → l'.Known key id := fun _ hid => h.known hl hid
  cases h with
  | number =>
    exact ⟨hl.numbers, fun e he => Nat.lt_succ_of_lt (hl.below e he), hl.waiting, hl.answered,
      hl.apart, hl.once, hl.known, hl.carried⟩
  | deliver r unknown => exact hl.deliver unknown hknown
  | reject id unknown =>
    refine ⟨hl.numbers, hl.below, hl.waiting, ?_, ?_, hl.once, fun e he => hknown _ (hl.known e he),
      hl.carried⟩
    · rw [List.map_append]
      exact nodup_concat hl.answered fun hmem => unknown (.inr hmem)
    · intro e he hmem
      rw [List.map_append, List.mem_append, List.map_singleton, List.mem_singleton] at hmem
      rcases hmem with hmem | hmem
      · exact hl.apart e he hmem
      · have hwaits := List.mem_map_of_mem (f := fun e : Nat × ρ => key e.2) he
        rw [show key e.2 = id from hmem] at hwaits
        exact unknown (.inl hwaits)
  | settle e accepted waits =>
    have hsub : l.pending.filter (fun e' => e'.1 ≠ e.1) |>.Sublist l.pending := List.filter_sublist
    refine ⟨hl.numbers.sublist (hsub.map _), fun e' he' => hl.below e' (hsub.subset he'),
      hl.waiting.sublist (hsub.map _), ?_, ?_, hl.once, fun e' he' => hknown _ (hl.known e' he'),
      fun e' he' => hl.carried e' (hsub.subset he')⟩
    · rw [List.map_append]
      exact nodup_concat hl.answered (hl.apart e waits)
    · intro e' he' hmem
      rw [List.map_append, List.mem_append, List.map_singleton, List.mem_singleton] at hmem
      rcases hmem with hmem | hmem
      · exact hl.apart e' (hsub.subset he') hmem
      · have heq := List.inj_on_of_nodup_map hl.waiting (hsub.subset he') waits hmem
        have hother := (List.mem_filter.mp he').2
        rw [heq] at hother
        simp at hother

theorem Steps.wf (hl : l.Wf key) (h : Steps key Deliverable Acceptable l l') : l'.Wf key := by
  induction h with
  | refl => exact hl
  | tail _ hstep ih => exact hstep.wf ih

theorem Steps.known (hl : l.Wf key) (h : Steps key Deliverable Acceptable l l')
    (hid : l.Known key id) : l'.Known key id := by
  induction h with
  | refl => exact hid
  | tail hsteps hstep ih => exact hstep.known (Steps.wf hl hsteps) ih

/-! ## What is entered -/

/-- The deliveries of a chain are allowed. -/
theorem Steps.sent (h : Steps key Deliverable Acceptable l l') :
    ∃ new, l'.sent = l.sent ++ new ∧ ∀ e ∈ new, Deliverable e.2 := by
  induction h with
  | refl => exact ⟨[], (List.append_nil _).symm, nofun⟩
  | tail _ hstep ih =>
    obtain ⟨new, hsent, hnew⟩ := ih
    cases hstep with
    | number => exact ⟨new, hsent, hnew⟩
    | settle => exact ⟨new, hsent, hnew⟩
    | reject => exact ⟨new, hsent, hnew⟩
    | deliver r unknown allowed =>
      refine ⟨new ++ [_], by rw [hsent, List.append_assoc], ?_⟩
      intro e he
      rcases List.mem_append.mp he with he | he
      · exact hnew e he
      · rw [List.mem_singleton.mp he]
        exact allowed

/-- The answers of a chain that accept answer what was handed over and may be accepted. -/
theorem Steps.answers (hl : l.Wf key) (h : Steps key Deliverable Acceptable l l') :
    ∃ new, l'.answers = l.answers ++ new ∧
      ∀ a ∈ new, a.2 = true → ∃ e ∈ l'.sent, key e.2 = a.1 ∧ Acceptable e := by
  induction h with
  | refl => exact ⟨[], (List.append_nil _).symm, nofun⟩
  | tail hsteps hstep ih =>
    obtain ⟨new, hanswers, hnew⟩ := ih
    cases hstep with
    | number => exact ⟨new, hanswers, hnew⟩
    | deliver r =>
      refine ⟨new, hanswers, fun a ha haccepted => ?_⟩
      obtain ⟨e, he, hkey, hallowed⟩ := hnew a ha haccepted
      exact ⟨e, List.mem_append_left _ he, hkey, hallowed⟩
    | reject id unknown =>
      refine ⟨new ++ [(id, false)], by rw [hanswers, List.append_assoc], ?_⟩
      intro a ha haccepted
      rcases List.mem_append.mp ha with ha | ha
      · exact hnew a ha haccepted
      · rw [List.mem_singleton.mp ha] at haccepted
        cases haccepted
    | settle e accepted waits allowed =>
      refine ⟨new ++ [(key e.2, accepted)], by rw [hanswers, List.append_assoc], ?_⟩
      intro a ha haccepted
      rcases List.mem_append.mp ha with ha | ha
      · exact hnew a ha haccepted
      · rw [List.mem_singleton.mp ha] at haccepted ⊢
        exact ⟨e, (Steps.wf hl hsteps).carried e waits, rfl, allowed haccepted⟩

/-- Once nothing waits, every known id has exactly one answer. -/
theorem Wf.answered_once [DecidableEq ι] (h : l.Wf key) (hnone : l.pending = [])
    (hid : l.Known key id) : (l.answers.map Prod.fst).count id = 1 := by
  rcases hid with hid | hid
  · rw [hnone] at hid
    cases hid
  · exact List.count_eq_one_of_mem h.answered hid

end Ledger

end Delivery
