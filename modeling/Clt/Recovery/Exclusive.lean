import Clt.Recovery.Ordinary

/-!
# Recovery keeps the original

From the moment a recovery has begun until it has published a consistent registry, its archive
holds the original bundle (`InProgress`). What it publishes is the original database, with
schema migrations, or a rebuild from an external snapshot that descends from the rows committed
last; after an interrupted update there is no rebuild (`Completed`).
-/

namespace Clt

open Durable Relation

section

variable {File : Type} (engine : StorageEngine File) (migrations : List AgentMigration)
  (w₀ : StateDir File)

/-- The archive is the one of the recovery in progress in `w₀`, or else a copy of `w₀`. -/
def OriginOf (archive : Archive File) : Prop :=
  (w₀.progress = none → archive.bundle = w₀.bundle ∧ archive.snapshot = w₀.snapshot ∧
    archive.dirty = w₀.dirty) ∧
  ∀ name, w₀.progress = some name → w₀.quarantine name = some archive

/-- A recovery is in progress, and the archive holds the original. -/
def InProgress (name : Nat) (archive : Archive File) (w : StateDir File) : Prop :=
  w.progress = some name ∧ w.quarantine name = some archive ∧ OriginOf w₀ archive ∧
    (∀ old, w₀.progress = some old → name = old) ∧ w.latest = w₀.latest

/-- A recovery has changed nothing yet. -/
def Untouched (w : StateDir File) : Prop :=
  w.progress = w₀.progress ∧ SameFiles w₀ w ∧
    ∀ name, w₀.progress = some name → w.quarantine name = w₀.quarantine name

/-- The last update of `w₀` was interrupted before its snapshot was durable. -/
def Interrupted : Prop :=
  (w₀.progress = none ∧ w₀.dirty = true) ∨
    ∃ name archive, w₀.progress = some name ∧ w₀.quarantine name = some archive ∧
      archive.dirty = true

/-- The rows are the ones committed last but for migrations, or descend from them; after an
interrupted update they are not rebuilt. -/
def Descent (r : AgentRows) : Prop :=
  ∃ rows before, w₀.latest = some rows ∧ Migrates migrations before rows ∧
    Descends migrations before r ∧ (Interrupted w₀ → Migrates migrations rows r)

/-- A recovery has published a registry. -/
def Completed (w : StateDir File) : Prop :=
  w.progress = none ∧ w.dirty = false ∧ ∃ r s, engine.rows w.bundle = some r ∧
    w.latest = some r ∧ w.snapshot = some s ∧ Exports r s ∧ Descent migrations w₀ r

/-- A recovery is ready to work on what it has in quarantine. -/
def Ready (name : Nat) (archive : Archive File) (w : StateDir File) : Prop :=
  InProgress w₀ name archive w ∧ engine.rows w.bundle = engine.rows archive.bundle ∧
    (archive.dirty = true → w.dirty = true)

/-- What a recovery keeps, wherever it stops. -/
def Recovering (w : StateDir File) : Prop :=
  Consistent engine migrations w ∧
    (Untouched w₀ w ∨ (∃ name archive, InProgress w₀ name archive w) ∨
      Completed engine migrations w₀ w)

/-- A recovery whose archive is there. -/
def Retaining (name : Nat) (archive : Archive File) (w : StateDir File) : Prop :=
  Consistent engine migrations w ∧ InProgress w₀ name archive w

/-- A recovery that has rows of a kind in its bundle. -/
def Working (K : AgentRows → Prop) (name : Nat) (archive : Archive File) (w : StateDir File) :
    Prop :=
  Consistent engine migrations w ∧ InProgress w₀ name archive w ∧
    ∀ r, engine.rows w.bundle = some r → K r

variable {engine migrations w₀} {name : Nat} {archive : Archive File}

theorem unmarked_untouched : Unmarked (Untouched w₀) := fun _ _ _ _ h => h

theorem unmarked_inProgress : Unmarked (InProgress w₀ name archive) := fun _ _ _ _ h => h

theorem Recovering.markerSafe : MarkerSafe (Recovering engine migrations w₀) :=
  Consistent.markerSafe_and fun _ _ _ _ h => h

theorem Retaining.markerSafe : MarkerSafe (Retaining engine migrations w₀ name archive) :=
  Consistent.markerSafe_and unmarked_inProgress

theorem Working.markerSafe {K : AgentRows → Prop} :
    MarkerSafe (Working engine migrations w₀ K name archive) :=
  Consistent.markerSafe_and fun _ _ _ _ h => h

theorem Retaining.recovering {w : StateDir File}
    (h : Retaining engine migrations w₀ name archive w) : Recovering engine migrations w₀ w :=
  ⟨h.1, .inr (.inl ⟨name, archive, h.2⟩)⟩

theorem Working.recovering {K : AgentRows → Prop} {w : StateDir File}
    (h : Working engine migrations w₀ K name archive w) : Recovering engine migrations w₀ w :=
  Retaining.recovering ⟨h.1, h.2.1⟩

/-- The archive of an interrupted update is dirty. -/
theorem OriginOf.interrupted_iff (h : OriginOf w₀ archive) :
    Interrupted w₀ ↔ archive.dirty = true := by
  constructor
  · rintro (⟨hprogress, hdirty⟩ | ⟨old, original, hprogress, hquarantine, hdirty⟩)
    · rw [(h.1 hprogress).2.2, hdirty]
    · rw [h.2 old hprogress] at hquarantine
      cases hquarantine
      exact hdirty
  · intro hdirty
    cases hprogress : w₀.progress with
    | none => exact .inl ⟨hprogress, by rw [← (h.1 hprogress).2.2, hdirty]⟩
    | some old => exact .inr ⟨old, archive, hprogress, h.2 old hprogress, hdirty⟩

/-! ## Working on the bundle -/

/-- While a recovery is in progress, the bundle is free. -/
theorem Consistent.withBundle {w : StateDir File} (h : Consistent engine migrations w)
    (hprogress : w.progress = some name) (b : Bundle File) :
    Consistent engine migrations { w with bundle := b } := by
  refine ⟨h.settled, fun hnone => ?_, h.retained, h.failure⟩
  rw [hprogress] at hnone
  cases hnone

theorem InProgress.settle {w : StateDir File} (h : InProgress w₀ name archive w) (r : AgentRows) :
    w.settle r = w.latest := by
  rw [StateDir.settle, h.1]
  rfl

/-- The engine works on rows of a kind that migrations keep. -/
theorem workspace_working {K : AgentRows → Prop}
    (hK : ∀ r r', K r → Migration migrations r r' → K r') :
    Workspace engine migrations (Working engine migrations w₀ K name archive) where
  safe := Working.markerSafe
  checkpoint w h := by
    refine ⟨h.1.withBundle h.2.1.1 _, h.2.1, fun r hr => h.2.2 r ?_⟩
    rwa [← show engine.rows (engine.checkpoint w.bundle) = engine.rows w.bundle from
      engine.committed_checkpoint w.bundle]
  reindex w h := by
    refine ⟨h.1.withBundle h.2.1.1 _, h.2.1, fun r hr => h.2.2 r ?_⟩
    rwa [← show engine.rows (engine.reindex w.bundle) = engine.rows w.bundle from
      engine.committed_reindex w.bundle]
  migrate w r r' h hrows hmigration := by
    have hcommitted : engine.rows (engine.commit r' w.bundle) = some r' :=
      engine.committed_commit r' w.bundle fun hnone => by
        rw [StorageEngine.rows, hnone] at hrows
        cases hrows
    rw [h.2.1.settle r']
    refine ⟨h.1.withBundle h.2.1.1 _, h.2.1, fun r₁ hr₁ => ?_⟩
    rw [show engine.rows (engine.commit r' w.bundle) = some r₁ from hr₁] at hcommitted
    cases hcommitted
    exact hK r r' (h.2.2 r hrows) hmigration

/-- Rows that descend from the ones committed last may be exported. -/
theorem publishable_working {K : AgentRows → Prop} (hK : ∀ r, K r → Descent migrations w₀ r) :
    Publishable engine (Working engine migrations w₀ K name archive) := by
  intro w r s h hrows hexports
  refine ⟨⟨fun hnone => ?_, h.1.intact, ?_, h.1.failure⟩, h.2⟩
  · rw [h.2.1.1] at hnone
    cases hnone
  · intro n hn
    obtain ⟨kept, hkept, hcopy, hretained⟩ := h.1.retained n hn
    refine ⟨kept, hkept, hcopy, fun hclean => ⟨(hretained hclean).1, ?_⟩⟩
    obtain ⟨rows, before, hlatest, hmigrates, hdescends, -⟩ := hK r (h.2.2 r hrows)
    exact ⟨rows, before, r, h.2.1.2.2.2.2.trans hlatest, hmigrates, hdescends, hexports⟩

variable {α : Type} {p : RegistryProgram File α} {ok : α → StateDir File → Prop}
  {pre post : StateDir File → Prop}

/-- What runs while the archive is there. -/
theorem guarded_of_retaining
    (h : Guarded Marks (Retaining engine migrations w₀ name archive) pre p ok) :
    Guarded Marks (Recovering engine migrations w₀)
      (fun w => InProgress w₀ name archive w ∧ pre w) p
      fun a w => InProgress w₀ name archive w ∧ ok a w :=
  Guarded.within _ pre ok (fun _ hw hp => ⟨⟨hw.1, hp.1⟩, hp.2⟩) h
    (fun _ => Retaining.recovering) fun _ _ hretaining hw => ⟨hretaining.2, hw⟩

/-- What runs while the archive is there and the bundle has rows of a kind. -/
theorem guarded_of_working {K : AgentRows → Prop}
    (h : Guarded Marks (Working engine migrations w₀ K name archive) pre p ok) :
    Guarded Marks (Retaining engine migrations w₀ name archive)
      (fun w => (∀ r, engine.rows w.bundle = some r → K r) ∧ pre w) p
      fun a w => (∀ r, engine.rows w.bundle = some r → K r) ∧ ok a w :=
  Guarded.within _ pre ok (fun _ hw hp => ⟨⟨hw.1, hw.2, hp.1⟩, hp.2⟩) h
    (fun _ hw => ⟨hw.1, hw.2.1⟩) fun _ _ hworking hw => ⟨hworking.2.2, hw⟩

/-- A file of the bundle is written. -/
theorem guarded_changeBundle {f : StateDir File → Bundle File} (hpre : Unmarked pre)
    (h : ∀ w, pre w → post { w with bundle := f w }) :
    Guarded Marks (Retaining engine migrations w₀ name archive) pre
      (change fun w => { w with bundle := f w }) fun _ => post :=
  guarded_change Retaining.markerSafe hpre fun w hw hp =>
    ⟨⟨hw.1.withBundle hw.2.1 _, hw.2⟩, h w hp⟩

/-- Restoring brings back the rows of the original. -/
theorem guarded_restoreBundle (hpre : Unmarked pre)
    (hbundle : ∀ w b, pre w → pre { w with bundle := b }) :
    Guarded Marks (Retaining engine migrations w₀ name archive) pre (restoreBundle name)
      fun _ w => pre w ∧ w.bundle = archive.bundle := by
  have hI : MarkerSafe (Retaining engine migrations w₀ name archive) := Retaining.markerSafe
  refine Guarded.through (fun original w => pre w ∧ original = archive)
    (guarded_query hI hpre fun w original hw hp horiginal => ⟨hp, ?_⟩) fun original => ?_
  · rw [hw.2.2.1] at horiginal
    cases horiginal
    rfl
  have hread : Unmarked fun w => pre w ∧ original = archive :=
    fun w required lock found hw => ⟨hpre w required lock found hw.1, hw.2⟩
  refine Guarded.through (fun _ w => pre w ∧ original = archive ∧
    w.bundle.db = archive.bundle.db) ?_ fun _ => ?_
  · exact guarded_changeBundle hread fun w hw => ⟨hbundle w _ hw.1, hw.2, by rw [hw.2]⟩
  refine Guarded.through (fun _ w => pre w ∧ original = archive ∧
    w.bundle.db = archive.bundle.db ∧ w.bundle.wal = archive.bundle.wal) ?_ fun _ => ?_
  · exact guarded_changeBundle (fun w required lock found hw =>
      ⟨hpre w required lock found hw.1, hw.2⟩) fun w hw =>
        ⟨hbundle w _ hw.1, hw.2.1, hw.2.2, by rw [hw.2.1]⟩
  refine Guarded.through (fun _ w => pre w ∧ original = archive ∧
    w.bundle.db = archive.bundle.db ∧ w.bundle.wal = archive.bundle.wal ∧
      w.bundle.tshm = archive.bundle.tshm) ?_ fun _ => ?_
  · exact guarded_changeBundle (fun w required lock found hw =>
      ⟨hpre w required lock found hw.1, hw.2⟩) fun w hw =>
        ⟨hbundle w _ hw.1, hw.2.1, hw.2.2.1, hw.2.2.2, by rw [hw.2.1]⟩
  refine Guarded.through (fun _ w => pre w ∧ w.bundle = archive.bundle) ?_ fun _ => ?_
  · refine guarded_changeBundle (fun w required lock found hw =>
      ⟨hpre w required lock found hw.1, hw.2⟩) fun w hw => ⟨hbundle w _ hw.1, ?_⟩
    obtain ⟨-, horiginal, hdb, hwal, htshm⟩ := hw
    show Bundle.mk w.bundle.db w.bundle.wal w.bundle.tshm original.bundle.shm = archive.bundle
    rw [hdb, hwal, htshm, horiginal]
  exact guarded_effort hI fun w required lock found hw => ⟨hpre w required lock found hw.1, hw.2⟩

/-! ## Taking the bundle into quarantine -/

theorem Untouched.recovering {w : StateDir File} (hw : Consistent engine migrations w)
    (h : Untouched w₀ w) : Recovering engine migrations w₀ w :=
  ⟨hw, .inl h⟩

/-- The copies of a quarantine are those of the files as they were. -/
theorem guarded_quarantineBundle (hprogress : w₀.progress = none) :
    Guarded Marks (Recovering engine migrations w₀) (Untouched w₀) (quarantineBundle)
      fun name w => Untouched w₀ w ∧
        ∃ archive, w.quarantine name = some archive ∧ OriginOf w₀ archive := by
  have hI : MarkerSafe (Recovering engine migrations w₀) := Recovering.markerSafe
  have hu : Unmarked (Untouched w₀) := unmarked_untouched
  have hfact : ∀ c : Prop, Unmarked fun w => c ∧ Untouched w₀ w := fun c _ _ _ _ h => h
  refine Guarded.bind (guarded_effort hI hu) fun _ => ?_
  refine Guarded.through (fun bundle w => bundle = w₀.bundle ∧ Untouched w₀ w)
    (guarded_query hI hu fun w b _ hp hb => ⟨by cases hb; exact hp.2.1.1, hp⟩) fun bundle => ?_
  refine Guarded.of_fact fun hbundle => ?_
  refine Guarded.through (fun snapshot w => snapshot = w₀.snapshot ∧ Untouched w₀ w)
    (guarded_query hI hu fun w b _ hp hb => ⟨by cases hb; exact hp.2.1.2.1, hp⟩)
    fun snapshot => ?_
  refine Guarded.of_fact fun hsnapshot => ?_
  refine Guarded.through (fun dirty w => dirty = w₀.dirty ∧ Untouched w₀ w)
    (guarded_query hI hu fun w b _ hp hb => ⟨by cases hb; exact hp.2.1.2.2.1, hp⟩)
    fun dirty => ?_
  refine Guarded.of_fact fun hdirty => ?_
  refine Guarded.through (fun _ => Untouched w₀) (guarded_query hI hu fun _ _ _ hp _ => hp)
    fun required => ?_
  refine Guarded.bind (guarded_effort hI hu) fun _ => ?_
  refine Guarded.through (fun _ => Untouched w₀) (guarded_look hI hu fun _ _ hp => hp)
    fun name => ?_
  have horigin : OriginOf w₀ ⟨bundle, snapshot, dirty, required⟩ := by
    refine ⟨fun _ => ⟨hbundle, hsnapshot, hdirty⟩, fun old hold => ?_⟩
    rw [hprogress] at hold
    cases hold
  refine Guarded.through (fun _ w => Untouched w₀ w ∧
    ∃ archive, w.quarantine name = some archive ∧ OriginOf w₀ archive) ?_ fun _ => ?_
  · refine guarded_change hI hu fun w hw hp => ?_
    have hkept : Untouched w₀ { w with
        quarantine := Function.update w.quarantine name (some ⟨bundle, snapshot, dirty, required⟩)
        archives := name + 1 } := by
      refine ⟨hp.1, hp.2.1, fun old hold => ?_⟩
      rw [hprogress] at hold
      cases hold
    refine ⟨Untouched.recovering ?_ hkept, hkept, _, Function.update_self .., horigin⟩
    refine ⟨hw.1.settled, hw.1.intact, fun n hn => ?_, hw.1.failure⟩
    rw [hp.1.trans hprogress] at hn
    cases hn
  refine Guarded.bind (guarded_effort hI fun _ _ _ _ h => h) fun _ => ?_
  exact guarded_pure fun _ _ hw => hw

/-- What lies in a directory outside of a recovery may be taken into an archive. -/
theorem Consistent.begin {w : StateDir File} (h₀ : Consistent engine migrations w₀)
    (hprogress : w₀.progress = none) (h : Consistent engine migrations w) (hu : Untouched w₀ w)
    (harchive : w.quarantine name = some archive) (horigin : OriginOf w₀ archive) :
    Retaining engine migrations w₀ name archive { w with progress := some name } := by
  obtain ⟨hbundle, -, hdirty⟩ := horigin.1 hprogress
  have hinProgress : InProgress w₀ name archive { w with progress := some name } := by
    refine ⟨rfl, harchive, horigin, fun old hold => ?_, hu.2.1.2.2.2⟩
    rw [hprogress] at hold
    cases hold
  have hbegun : (some name : Option Nat) ≠ none := Option.some_ne_none name
  refine ⟨⟨fun hnone => absurd hnone hbegun, fun hnone => absurd hnone hbegun, ?_, h.failure⟩,
    hinProgress⟩
  intro n hn
  cases hn
  refine ⟨archive, harchive, ?_, fun hclean => ⟨?_, ?_⟩⟩
  · show engine.rows archive.bundle = none ∨ engine.rows archive.bundle = w.latest
    rw [hbundle, hu.2.1.2.2.2]
    exact h₀.intact hprogress
  · exact hu.2.1.2.2.1.trans (hdirty.symm.trans hclean)
  · show Reconstructible migrations w.latest w.snapshot
    rw [hu.2.1.2.2.2, hu.2.1.2.1]
    exact (h₀.settled hprogress (hdirty.symm.trans hclean)).reconstructible

theorem guarded_beginArchive (h₀ : Consistent engine migrations w₀)
    (hprogress : w₀.progress = none) :
    Guarded Marks (Recovering engine migrations w₀) (Untouched w₀) beginArchive
      fun name w => ∃ archive, Ready engine w₀ name archive w := by
  have hI : MarkerSafe (Recovering engine migrations w₀) := Recovering.markerSafe
  refine Guarded.bind (guarded_quarantineBundle hprogress) fun name => ?_
  refine Guarded.through (fun _ w => ∃ archive, Ready engine w₀ name archive w) ?_ fun _ =>
    guarded_pure fun _ _ hw => hw
  refine guarded_change hI (fun _ _ _ _ h => h) fun w hw hp => ?_
  obtain ⟨hu, archive, harchive, horigin⟩ := hp
  have hretaining := Consistent.begin h₀ hprogress hw.1 hu harchive horigin
  obtain ⟨hbundle, -, hdirty⟩ := horigin.1 hprogress
  refine ⟨hretaining.recovering, archive, hretaining.2, ?_, fun h => ?_⟩
  · rw [hbundle]
    exact congrArg engine.rows hu.2.1.1
  · exact hu.2.1.2.2.1.trans (hdirty.symm.trans h)

/-- The recovery in progress goes on with its archive. -/
theorem guarded_resumeArchive (h₀ : Consistent engine migrations w₀)
    (hprogress : w₀.progress ≠ none) (automatic : Bool) :
    Guarded Marks (Recovering engine migrations w₀) (Untouched w₀) (resumeArchive automatic)
      fun name w => ∃ archive, Ready engine w₀ name archive w := by
  obtain ⟨name, hname⟩ := Option.ne_none_iff_exists'.mp hprogress
  obtain ⟨archive, harchive, -, -⟩ := h₀.retained name hname
  have horigin : OriginOf w₀ archive := by
    refine ⟨fun hnone => absurd hnone hprogress, fun old hold => ?_⟩
    rw [hname] at hold
    cases hold
    exact harchive
  have hin : ∀ w, Untouched w₀ w → InProgress w₀ name archive w := fun w hu =>
    ⟨hu.1.trans hname, (hu.2.2 name hname).trans harchive, horigin,
      fun old hold => by rw [hname] at hold; cases hold; rfl, hu.2.1.2.2.2⟩
  refine Guarded.of_pre (?_ : Guarded Marks (Recovering engine migrations w₀)
    (fun w => InProgress w₀ name archive w ∧ True) _ _) fun w _ hu => ⟨hin w hu, trivial⟩
  refine Guarded.of_ok (guarded_of_retaining (?_ : Guarded Marks
    (Retaining engine migrations w₀ name archive) (fun _ => True) _ fun found w =>
      found = name ∧ engine.rows w.bundle = engine.rows archive.bundle ∧
        (archive.dirty = true → w.dirty = true))) ?_
  · have hI : MarkerSafe (Retaining engine migrations w₀ name archive) := Retaining.markerSafe
    refine Guarded.through (fun found _ => found = name ∧ True)
      (guarded_query hI unmarked_true fun w found hw _ hfound => ⟨?_, trivial⟩) fun found => ?_
    · rw [hw.2.1] at hfound
      cases hfound
      rfl
    refine Guarded.of_fact fun hfound => ?_
    subst hfound
    refine Guarded.bind (guarded_demand hI unmarked_true fun _ _ h _ => h) fun _ => ?_
    refine Guarded.bind (guarded_whenever fun _ =>
      guarded_demand hI unmarked_true fun _ _ h _ => h) fun _ => ?_
    refine Guarded.through (fun interrupted _ => interrupted = archive.dirty ∧ True)
      (guarded_look hI unmarked_true fun w hw _ => ⟨?_, trivial⟩) fun interrupted => ?_
    · rw [hw.2.2.1]
      rfl
    refine Guarded.of_fact fun hinterrupted => ?_
    refine Guarded.through (fun _ w => archive.dirty = true → w.dirty = true) ?_ fun _ => ?_
    · rw [hinterrupted]
      unfold Procedure.whenever
      split
      · rename_i hinterrupted
        refine guarded_change hI unmarked_true fun w hw _ => ⟨⟨⟨fun hnone => ?_, hw.1.intact,
          fun n hn => ?_, hw.1.failure⟩, hw.2⟩, fun _ => rfl⟩
        · exact absurd (hw.2.1.symm.trans hnone) (Option.some_ne_none _)
        · obtain ⟨kept, hkept, hcopy, -⟩ := hw.1.retained n hn
          refine ⟨kept, hkept, hcopy, fun hclean => ?_⟩
          cases hw.2.1.symm.trans hn
          rw [hw.2.2.1] at hkept
          cases hkept
          exact absurd (hinterrupted.symm.trans hclean) (by decide)
      · exact guarded_pure fun _ _ _ h => absurd h ‹_›
    refine Guarded.bind (guarded_restoreBundle (fun _ _ _ _ h => h) fun _ _ h => h) fun _ => ?_
    exact guarded_pure fun w _ hw => ⟨rfl, by rw [hw.2], hw.1⟩
  · rintro found w hw ⟨hinProgress, rfl, hrows, hdirty⟩
    exact ⟨archive, hinProgress, hrows, hdirty⟩

/-- The archive of a recovery, of one that begins or of the one in progress. -/
theorem guarded_takeArchive (h₀ : Consistent engine migrations w₀) (automatic : Bool) :
    Guarded Marks (Recovering engine migrations w₀) (Untouched w₀)
      (takeArchive w₀.progress.isSome automatic)
      fun name w => ∃ archive, Ready engine w₀ name archive w := by
  unfold takeArchive
  cases hprogress : w₀.progress with
  | none =>
    rw [if_neg (by decide)]
    exact guarded_beginArchive h₀ hprogress
  | some old =>
    rw [if_pos Option.isSome_some]
    exact guarded_resumeArchive h₀ (by rw [hprogress]; exact Option.some_ne_none old) automatic

/-! ## The original database -/

variable (migrations w₀) in
/-- The rows are the ones committed last but for migrations. -/
def Kept (r : AgentRows) : Prop := ∃ rows, w₀.latest = some rows ∧ Migrates migrations rows r

theorem Kept.migrated {r r' : AgentRows} (h : Kept migrations w₀ r)
    (hmigration : Migration migrations r r') : Kept migrations w₀ r' := by
  obtain ⟨rows, hlatest, hmigrates⟩ := h
  exact ⟨rows, hlatest, hmigrates.tail hmigration⟩

theorem Kept.descent {r : AgentRows} (h : Kept migrations w₀ r) : Descent migrations w₀ r := by
  obtain ⟨rows, hlatest, hmigrates⟩ := h
  exact ⟨rows, rows, hlatest, .refl, hmigrates.descends, fun _ => hmigrates⟩

theorem Descent.migrated {r r' : AgentRows} (h : Descent migrations w₀ r)
    (hmigration : Migration migrations r r') : Descent migrations w₀ r' := by
  obtain ⟨rows, before, hlatest, hbefore, hdescends, hinterrupted⟩ := h
  exact ⟨rows, before, hlatest, hbefore, hdescends.tail (.inl hmigration),
    fun h => (hinterrupted h).tail hmigration⟩

/-- The original has the rows committed last, or cannot be read. -/
theorem InProgress.kept {w : StateDir File} (h : InProgress w₀ name archive w)
    (hw : Consistent engine migrations w)
    (hrows : engine.rows w.bundle = engine.rows archive.bundle) {r : AgentRows}
    (hr : engine.rows w.bundle = some r) : Kept migrations w₀ r := by
  obtain ⟨hprogress, harchive, -, -, hlatest⟩ := h
  obtain ⟨archive', harchive', hcopy, -⟩ := hw.retained name hprogress
  rw [harchive] at harchive'
  cases harchive'
  rw [← hrows, hr] at hcopy
  rcases hcopy with hnone | hsome
  · cases hnone
  · exact ⟨r, hlatest.symm.trans hsome.symm, .refl⟩

section

variable {K : AgentRows → Prop} (hK : ∀ r r', K r → Migration migrations r r' → K r')

include hK

/-- A database is opened for recovery: what was built is migrated. -/
theorem guarded_openForRecovery
    (hbuild : Guarded Marks (Retaining engine migrations w₀ name archive) pre
      (buildDatabase engine) fun _ w => ∀ r, engine.rows w.bundle = some r → K r) :
    Guarded Marks (Retaining engine migrations w₀ name archive) pre
      (openForRecovery engine migrations) fun _ w => ∀ r, engine.rows w.bundle = some r → K r := by
  have hW : Workspace engine migrations (Working engine migrations w₀ K name archive) :=
    workspace_working hK
  refine Guarded.bind (guarded_blockOnRecovery Retaining.markerSafe ?_) fun _ =>
    guarded_pure fun _ _ hw => hw
  refine Guarded.bind hbuild fun _ => ?_
  refine Guarded.of_ok (Guarded.of_pre (guarded_of_working (?_ : Guarded Marks
    (Working engine migrations w₀ K name archive) (fun _ => True) _ fun _ _ => True))
      fun _ _ hw => ⟨hw, trivial⟩) fun _ _ _ hw => hw.1
  refine Guarded.bind (guarded_effort hW.safe unmarked_true) fun _ => ?_
  refine Guarded.bind (guarded_whenever fun hfalse => absurd hfalse (by decide)) fun _ => ?_
  refine Guarded.bind (guarded_applyMigrations hW (List.Subset.refl migrations)) fun _ => ?_
  refine Guarded.bind (guarded_whenever fun _ => guarded_openCheckpointPin hW.safe unmarked_true)
    fun _ => ?_
  exact guarded_pure fun _ _ _ => trivial

theorem guarded_repairWorkerIndexesIfNeeded :
    Guarded Marks (Working engine migrations w₀ K name archive) (fun _ => True)
      (repairWorkerIndexesIfNeeded engine) fun _ _ => True := by
  have hW : Workspace engine migrations (Working engine migrations w₀ K name archive) :=
    workspace_working hK
  refine Guarded.through (fun _ _ => True)
    ((guarded_integrityCheck hW.safe unmarked_true).attempt.of_ok fun _ _ _ _ => trivial)
    fun checked => ?_
  rcases checked with (text | failures) | ⟨⟩
  · exact guarded_fail
  · dsimp only
    split
    · refine Guarded.bind (guarded_effort hW.safe unmarked_true) fun _ => ?_
      refine Guarded.through (fun _ _ => True)
        (guarded_change hW.safe unmarked_true fun w hw _ => ⟨hW.reindex w hw, trivial⟩) fun _ => ?_
      exact guarded_integrityCheck hW.safe unmarked_true
    · exact guarded_fail
  · exact guarded_pure fun _ _ _ => trivial

theorem guarded_checkpointExclusiveRegistry :
    Guarded Marks (Working engine migrations w₀ K name archive) (fun _ => True)
      (checkpointExclusiveRegistry engine) fun _ _ => True := by
  have hW : Workspace engine migrations (Working engine migrations w₀ K name archive) :=
    workspace_working hK
  refine Guarded.bind (guarded_blockOnRecovery hW.safe
    (guarded_repairWorkerIndexesIfNeeded hK)) fun _ => ?_
  refine guarded_blockOnRecovery hW.safe ?_
  refine Guarded.bind (guarded_effort hW.safe unmarked_true) fun _ => ?_
  refine Guarded.bind (guarded_walCheckpoint hW) fun _ => ?_
  exact guarded_integrityCheck hW.safe unmarked_true

end

theorem guarded_verifyRecoveryTeardown {I : StateDir File → Prop} (hI : MarkerSafe I)
    (hpre : Unmarked pre) : Guarded Marks I pre verifyRecoveryTeardown fun _ => pre :=
  Guarded.bind (guarded_effort hI hpre) fun _ => guarded_demand hI hpre fun _ _ hw _ => hw

/-- Where the attempt succeeds, the original database is exported. -/
theorem guarded_coordinationAttempt (automatic hasDatabase : Bool) :
    Guarded Marks (Retaining engine migrations w₀ name archive)
      (fun w => (hasDatabase = true → w.bundle.db.isSome = true) ∧
        ∀ r, engine.rows w.bundle = some r → Kept migrations w₀ r)
      (coordinationAttempt engine migrations automatic hasDatabase)
      fun _ w => (∀ r, engine.rows w.bundle = some r → Kept migrations w₀ r) ∧
        Exported engine w := by
  have hI : MarkerSafe (Retaining engine migrations w₀ name archive) := Retaining.markerSafe
  have hK : ∀ r r', Kept migrations w₀ r → Migration migrations r r' → Kept migrations w₀ r' :=
    fun _ _ => Kept.migrated
  have hW : Workspace engine migrations
      (Working engine migrations w₀ (Kept migrations w₀) name archive) :=
    workspace_working hK
  refine Guarded.through (fun _ w => w.bundle.db.isSome = true ∧
    ∀ r, engine.rows w.bundle = some r → Kept migrations w₀ r)
    (guarded_demand hI (fun _ _ _ _ h => h) fun w _ hw hdb => ⟨hw.1 hdb, hw.2⟩) fun _ => ?_
  refine Guarded.bind (guarded_openForRecovery hK ?_) fun _ => ?_
  · refine guarded_change hI (fun _ _ _ _ h => h) fun w hw hp => ?_
    rw [if_pos hp.1]
    exact ⟨hw, hp.2⟩
  refine Guarded.of_pre (guarded_of_working (?_ : Guarded Marks
    (Working engine migrations w₀ (Kept migrations w₀) name archive) (fun _ => True) _
      fun _ => Exported engine)) fun _ _ hw => ⟨hw, trivial⟩
  refine Guarded.bind (guarded_whenever fun _ => ?_) fun _ => ?_
  · exact Guarded.bind (guarded_blockOnRecovery hW.safe
      (guarded_readCommittedSnapshot hW.safe unmarked_true)) fun _ =>
        (guarded_effort hW.safe fun _ _ _ _ h => h).of_ok fun _ _ _ _ => trivial
  refine Guarded.bind (guarded_checkpointExclusiveRegistry hK) fun _ => ?_
  refine Guarded.bind (guarded_blockOnRecovery hW.safe (guarded_exportSnapshot hW.safe
    (publishable_working fun _ => Kept.descent))) fun _ => ?_
  exact guarded_verifyRecoveryTeardown hW.safe unmarked_exported

/-! ## The rebuild -/

/-- Where no update was interrupted, `registry.json` descends from the rows committed last. -/
theorem Consistent.reconstructible (h₀ : Consistent engine migrations w₀)
    (hfree : ¬ Interrupted w₀) : Reconstructible migrations w₀.latest w₀.snapshot := by
  cases hprogress : w₀.progress with
  | none =>
    have hdirty : w₀.dirty = false := by
      by_contra hdirty
      rw [Bool.not_eq_false] at hdirty
      exact hfree (.inl ⟨hprogress, hdirty⟩)
    exact (h₀.settled hprogress hdirty).reconstructible
  | some name =>
    obtain ⟨archive, harchive, -, hclean⟩ := h₀.retained name hprogress
    refine (hclean ?_).2
    by_contra hdirty
    rw [Bool.not_eq_false] at hdirty
    exact hfree (.inr ⟨name, archive, hprogress, harchive, hdirty⟩)

/-- What is rebuilt from the manifest of the directory descends from the rows committed last. -/
theorem Consistent.rebuilt (h₀ : Consistent engine migrations w₀) (hfree : ¬ Interrupted w₀)
    {s manifest : RegistrySnapshot} (hs : w₀.snapshot = some s)
    (hmanifest : readSnapshot s = .ok manifest) {made r : AgentRows} {now : String}
    (hmade : Migrates migrations .fresh made) (hr : rebuiltRows now manifest made = .ok r) :
    Descent migrations w₀ r := by
  have hreconstructible := h₀.reconstructible hfree
  rw [hs] at hreconstructible
  obtain ⟨rows, before, exported, hlatest, hmigrates, hdescends, hexports⟩ := hreconstructible
  refine ⟨rows, before, hlatest, hmigrates, hdescends.tail (.inr ?_),
    fun hinterrupted => absurd hinterrupted hfree⟩
  exact ⟨s, manifest, now, made, hexports, hmanifest, hmade, hr⟩

/-- The files of the bundle are removed. -/
theorem guarded_removeBundle (hpre : Unmarked pre) :
    Guarded Marks (Retaining engine migrations w₀ name archive) pre removeBundle
      fun _ w => w.bundle.db = none := by
  have hgone : Unmarked fun w : StateDir File => w.bundle.db = none := fun _ _ _ _ h => h
  refine Guarded.through (fun _ w => w.bundle.db = none)
    (guarded_changeBundle hpre fun _ _ => rfl) fun _ => ?_
  refine Guarded.through (fun _ w => w.bundle.db = none)
    (guarded_changeBundle hgone fun _ h => h) fun _ => ?_
  refine Guarded.through (fun _ w => w.bundle.db = none)
    (guarded_changeBundle hgone fun _ h => h) fun _ => ?_
  exact guarded_changeBundle hgone fun _ h => h

/-- A missing database is made with nothing in it. -/
theorem guarded_buildMissing :
    Guarded Marks (Retaining engine migrations w₀ name archive) (fun w => w.bundle.db = none)
      (buildDatabase engine)
      fun _ w => ∀ r, engine.rows w.bundle = some r → Migrates migrations .fresh r := by
  refine guarded_change Retaining.markerSafe (fun _ _ _ _ h => h) fun w hw hp => ?_
  rw [if_neg (by simp [hp]), hw.2.settle]
  refine ⟨⟨hw.1.withBundle hw.2.1 _, hw.2⟩, fun r hr => ?_⟩
  rw [show engine.rows (engine.create w.bundle) = some .fresh from
    engine.committed_create w.bundle hp] at hr
  cases hr
  exact .refl

/-- The snapshot is restored over the rows of the new database. -/
theorem guarded_restoreFromSnapshot (h₀ : Consistent engine migrations w₀)
    (hfree : ¬ Interrupted w₀) {s manifest : RegistrySnapshot} (hs : w₀.snapshot = some s)
    (hmanifest : readSnapshot s = .ok manifest) :
    Guarded Marks (Retaining engine migrations w₀ name archive)
      (fun w => ∀ r, engine.rows w.bundle = some r → Migrates migrations .fresh r)
      (restoreFromSnapshot engine manifest)
      fun _ w => ∀ r, engine.rows w.bundle = some r → Descent migrations w₀ r := by
  have hI : MarkerSafe (Retaining engine migrations w₀ name archive) := Retaining.markerSafe
  refine Guarded.through (fun rows w => Migrates migrations .fresh rows ∧
    engine.rows w.bundle = some rows) (guarded_query hI (fun _ _ _ _ h => h)
      fun w rows _ hw hrows => ⟨hw rows hrows, hrows⟩) fun rows => ?_
  refine Guarded.of_fact fun hmade => ?_
  refine Guarded.through (fun _ w => engine.rows w.bundle = some rows)
    (guarded_step hI.stable unmarked_rows.stable (fun _ _ hw _ => hw) fun _ _ _ _ hp _ => hp)
    fun now => ?_
  cases hrebuilt : rebuiltRows (toString now) manifest rows with
  | error e => exact guarded_fail
  | ok rebuilt =>
    refine Guarded.through (fun _ w => ∀ r, engine.rows w.bundle = some r →
      Descent migrations w₀ r) ?_ fun _ => guarded_integrityCheck hI fun _ _ _ _ h => h
    refine guarded_change hI unmarked_rows fun w hw hrows => ?_
    have hcommitted : engine.rows (engine.commit rebuilt w.bundle) = some rebuilt :=
      engine.committed_commit rebuilt w.bundle fun hnone => by
        rw [StorageEngine.rows, hnone] at hrows
        cases hrows
    rw [hw.2.settle]
    refine ⟨⟨hw.1.withBundle hw.2.1 _, hw.2⟩, fun r hr => ?_⟩
    rw [show engine.rows (engine.commit rebuilt w.bundle) = some r from hr] at hcommitted
    cases hcommitted
    exact h₀.rebuilt hfree hs hmanifest hmade hrebuilt

/-- A registry that is rebuilt is exported, and descends from the rows committed last. -/
theorem guarded_rebuildRegistry (h₀ : Consistent engine migrations w₀)
    (horigin : OriginOf w₀ archive) {automatic dirty : Bool}
    (hdirty : archive.dirty = true → dirty = true) {manifest : Option RegistrySnapshot}
    (hmanifest : ∀ m, manifest = some m → ∃ s, w₀.snapshot = some s ∧ readSnapshot s = .ok m) :
    Guarded Marks (Retaining engine migrations w₀ name archive) (fun _ => True)
      (rebuildRegistry engine migrations automatic dirty name manifest)
      fun _ w => (∀ r, engine.rows w.bundle = some r → Descent migrations w₀ r) ∧
        Exported engine w := by
  have hI : MarkerSafe (Retaining engine migrations w₀ name archive) := Retaining.markerSafe
  have hmigrates : ∀ r r', Migrates migrations .fresh r → Migration migrations r r' →
      Migrates migrations .fresh r' := fun _ _ h h' => h.tail h'
  have hdescent : ∀ r r', Descent migrations w₀ r → Migration migrations r r' →
      Descent migrations w₀ r' := fun _ _ => Descent.migrated
  refine Guarded.through (fun _ _ => True) ((guarded_restoreBundle unmarked_true fun _ _ h =>
    h).of_ok fun _ _ _ _ => trivial) fun _ => ?_
  refine Guarded.bind (guarded_demand hI unmarked_true fun _ _ h _ => h) fun _ => ?_
  refine Guarded.through (fun _ _ => dirty = false ∧ True)
    (guarded_demand hI unmarked_true fun _ _ h hc => ⟨by simpa using hc, h⟩) fun _ => ?_
  refine Guarded.of_fact fun hclean => ?_
  have hfree : ¬ Interrupted w₀ := by
    rw [horigin.interrupted_iff]
    intro h
    rw [hdirty h] at hclean
    cases hclean
  cases manifest with
  | none => exact guarded_fail
  | some m =>
    obtain ⟨s, hs, hread⟩ := hmanifest m rfl
    refine Guarded.bind (guarded_removeBundle unmarked_true) fun _ => ?_
    refine Guarded.bind (guarded_markRequired hI (fun _ _ _ _ h => h) (by decide)) fun _ => ?_
    refine Guarded.through (fun result w => ∀ a : Unit, result = .ok a →
      (∀ r, engine.rows w.bundle = some r → Descent migrations w₀ r) ∧ Exported engine w)
      (Guarded.attempt ?_) fun result => ?_
    · refine Guarded.bind (guarded_openForRecovery hmigrates guarded_buildMissing) fun _ => ?_
      refine Guarded.through (fun _ w => (∀ r, engine.rows w.bundle = some r →
        Descent migrations w₀ r) ∧ Exported engine w) ?_ fun _ =>
          guarded_verifyRecoveryTeardown hI fun _ _ _ _ h => h
      refine guarded_blockOnRecovery hI ?_
      refine Guarded.bind (guarded_restoreFromSnapshot h₀ hfree hs hread) fun _ => ?_
      exact (guarded_of_working (guarded_exportSnapshot
        (workspace_working hdescent).safe (publishable_working fun _ h => h))).of_pre
          fun _ _ hw => ⟨hw, trivial⟩
    cases result with
    | ok _ => exact guarded_pure fun _ _ hw => hw () rfl
    | error e =>
      exact Guarded.through (fun _ _ => True) ((guarded_restoreBundle (fun _ _ _ _ h => h)
        fun _ _ _ _ ha => by cases ha).of_ok fun _ _ _ _ => trivial) fun _ => guarded_fail

/-! ## The end of a recovery -/

theorem unmarked_completed : Unmarked (Completed engine migrations w₀) := fun _ _ _ _ h => h

/-- The registry is published before the recovery stops being in progress. -/
theorem guarded_finishRecovery :
    Guarded Marks (Recovering engine migrations w₀)
      (fun w => InProgress w₀ name archive w ∧
        (∀ r, engine.rows w.bundle = some r → Descent migrations w₀ r) ∧ Exported engine w)
      (finishRecovery engine)
      fun _ w => Completed engine migrations w₀ w ∧ w.quarantine name = some archive := by
  have hI : MarkerSafe (Recovering engine migrations w₀) := Recovering.markerSafe
  have hended : Unmarked fun w => Completed engine migrations w₀ w ∧
      w.quarantine name = some archive := fun _ _ _ _ h => h
  refine Guarded.through (fun _ w => InProgress w₀ name archive w ∧
    (∀ r, engine.rows w.bundle = some r → Descent migrations w₀ r) ∧ Exported engine w ∧
      w.dirty = false) ?_ fun _ => ?_
  · refine Guarded.through (fun _ w => InProgress w₀ name archive w ∧
      (∀ r, engine.rows w.bundle = some r → Descent migrations w₀ r) ∧ Exported engine w ∧
        w.dirty = false) ?_ fun _ => guarded_effort hI fun _ _ _ _ h => h
    refine guarded_change hI (fun _ _ _ _ h => h) fun w hw hp => ?_
    have hclean : Retaining engine migrations w₀ name archive { w with dirty := false } := by
      refine ⟨⟨fun hnone => ?_, hw.1.intact, fun n hn => ?_, hw.1.failure⟩, hp.1⟩
      · exact absurd (hp.1.1.symm.trans hnone) (Option.some_ne_none _)
      · obtain ⟨kept, hkept, hcopy, hretained⟩ := hw.1.retained n hn
        exact ⟨kept, hkept, hcopy, fun hclean => ⟨rfl, (hretained hclean).2⟩⟩
    exact ⟨hclean.recovering, hp.1, hp.2.1, hp.2.2, rfl⟩
  refine Guarded.through (fun _ w => Completed engine migrations w₀ w ∧
    w.quarantine name = some archive) ?_ fun _ => ?_
  · refine guarded_change hI (fun _ _ _ _ h => h) fun w hw hp => ?_
    obtain ⟨hinProgress, hdescent, ⟨r, s, hrows, hsnapshot, hexports⟩, hdirty⟩ := hp
    have hcompleted : Completed engine migrations w₀
        { w with progress := none, latest := engine.rows w.bundle } :=
      ⟨rfl, hdirty, r, s, hrows, hrows, hsnapshot, hexports, hdescent r hrows⟩
    refine ⟨⟨⟨fun _ _ => ?_, fun _ => .inr rfl, fun n hn => absurd hn (Option.some_ne_none n).symm,
      hw.1.failure⟩, .inr (.inr hcompleted)⟩, hcompleted, hinProgress.2.1⟩
    show Current migrations (engine.rows w.bundle) w.snapshot
    rw [hrows, hsnapshot]
    exact ⟨r, r, rfl, hexports, .refl⟩
  refine Guarded.through (fun _ w => Completed engine migrations w₀ w ∧
    w.quarantine name = some archive) ?_ fun _ => guarded_effort hI hended
  refine guarded_change hI hended fun w hw hp => ⟨⟨⟨hw.1.settled, hw.1.intact, hw.1.retained,
    fun hfound => by cases hfound⟩, .inr (.inr hp.1)⟩, hp⟩

/-- What a report says: the archive that was kept, unless it was routine maintenance. -/
def Reported (w₀ : StateDir File) (maintenance : Bool) (report : RecoveryReport)
    (w : StateDir File) : Prop :=
  (maintenance = true ∧ w₀.progress = none) ∨
    ∃ archive, OriginOf w₀ archive ∧ w.quarantine report.quarantine = some archive

/-- Wherever a recovery stops, the original is retained or a registry is published. -/
theorem guarded_recoverRegistryWithPolicy (h₀ : Consistent engine migrations w₀)
    (automatic maintenance : Bool) :
    Guarded Marks (Recovering engine migrations w₀) (Untouched w₀)
      (recoverRegistryWithPolicy engine migrations automatic maintenance)
      fun report w => Completed engine migrations w₀ w ∧ Reported w₀ maintenance report w := by
  have hI : MarkerSafe (Recovering engine migrations w₀) := Recovering.markerSafe
  have hu : Unmarked (Untouched w₀) := unmarked_untouched
  refine Guarded.through (fun _ => Untouched w₀) ((guarded_readManifest hI hu).of_ok
    fun _ _ _ hw => hw.1) fun drained => ?_
  refine Guarded.bind (guarded_whenever fun _ => guarded_effort hI hu) fun _ => ?_
  refine Guarded.bind (guarded_effort hI hu) fun _ => ?_
  refine Guarded.bind (guarded_effort hI hu) fun _ => ?_
  refine Guarded.through (fun manifest w => (∀ m, manifest = some m →
      ∃ s, w₀.snapshot = some s ∧ readSnapshot s = .ok m) ∧ Untouched w₀ w)
    ((guarded_readManifest hI hu).of_ok fun manifest w _ hw =>
      ⟨fun m hm => ?_, hw.1⟩) fun manifest => ?_
  · obtain ⟨s, hs, hread⟩ := hw.2 m hm
    exact ⟨s, hw.1.2.1.2.1.symm.trans hs, hread⟩
  refine Guarded.of_fact fun hmanifest => ?_
  refine Guarded.bind (guarded_whenever fun _ => Guarded.bind
    (guarded_demand hI hu fun _ _ h _ => h) fun _ => guarded_demand hI hu fun _ _ h _ => h)
      fun _ => ?_
  refine Guarded.bind (guarded_effort hI hu) fun _ => ?_
  refine Guarded.bind (guarded_whenever fun _ => guarded_effort hI hu) fun _ => ?_
  refine Guarded.through (fun resuming w => resuming = w₀.progress.isSome ∧ Untouched w₀ w)
    (guarded_look hI hu fun w _ hw => ⟨by rw [hw.1], hw⟩) fun resuming => ?_
  refine Guarded.of_fact fun hresuming => ?_
  refine Guarded.through (fun name w => ∃ archive, Ready engine w₀ name archive w) ?_
    fun name => ?_
  · rw [hresuming]
    exact guarded_takeArchive h₀ automatic
  refine Guarded.of_exists fun archive => ?_
  have hready : Unmarked (Ready engine w₀ name archive) := fun _ _ _ _ h => h
  refine Guarded.through (fun dirty w => (archive.dirty = true → dirty = true) ∧
    Ready engine w₀ name archive w) (guarded_look hI hready fun _ _ hw => ⟨hw.2.2, hw⟩)
    fun dirty => ?_
  refine Guarded.of_fact fun hdirty => ?_
  refine Guarded.through (fun hasDatabase w => Ready engine w₀ name archive w ∧
    (hasDatabase = true → w.bundle.db.isSome = true))
    (guarded_look hI hready fun _ _ hw => ⟨hw, fun h => h⟩) fun hasDatabase => ?_
  -- The coordination files are not where the rows lie.
  refine Guarded.of_pre (?_ : Guarded Marks (Recovering engine migrations w₀)
    (fun w => InProgress w₀ name archive w ∧ engine.rows w.bundle = engine.rows archive.bundle ∧
      (hasDatabase = true → w.bundle.db.isSome = true)) _ _) fun w _ hw =>
        ⟨hw.1.1, hw.1.2.1, hw.2⟩
  have hlaid : Unmarked fun w => engine.rows w.bundle = engine.rows archive.bundle ∧
    (hasDatabase = true → w.bundle.db.isSome = true) := fun _ _ _ _ h => h
  have hlaid' : Unmarked fun w => InProgress w₀ name archive w ∧
    engine.rows w.bundle = engine.rows archive.bundle ∧
      (hasDatabase = true → w.bundle.db.isSome = true) := fun _ _ _ _ h => h
  refine Guarded.bind (guarded_markRequired hI hlaid' (by decide)) fun _ => ?_
  refine Guarded.through (fun _ w => InProgress w₀ name archive w ∧
    engine.rows w.bundle = engine.rows archive.bundle ∧
      (hasDatabase = true → w.bundle.db.isSome = true))
    (guarded_of_retaining (guarded_changeBundle hlaid fun _ hw => hw)) fun _ => ?_
  refine Guarded.through (fun _ w => InProgress w₀ name archive w ∧
    engine.rows w.bundle = engine.rows archive.bundle ∧
      (hasDatabase = true → w.bundle.db.isSome = true))
    (guarded_of_retaining (guarded_changeBundle hlaid fun _ hw => hw)) fun _ => ?_
  refine Guarded.bind (guarded_effort hI hlaid') fun _ => ?_
  refine Guarded.bind (Guarded.of_pre (guarded_of_retaining
    (guarded_coordinationAttempt automatic hasDatabase).attempt) fun w hw hp =>
      ⟨hp.1, hp.2.2, fun r hr => hp.1.kept hw.1 hp.2.1 hr⟩) fun attempted => ?_
  refine Guarded.of_pre (?_ : Guarded Marks (Recovering engine migrations w₀)
    (fun w => OriginOf w₀ archive ∧ InProgress w₀ name archive w ∧ ∀ a, attempted = .ok a →
      (∀ r, engine.rows w.bundle = some r → Kept migrations w₀ r) ∧ Exported engine w) _ _)
        fun w _ hw => ⟨hw.1.2.2.1, hw⟩
  refine Guarded.of_fact fun horigin => ?_
  refine Guarded.through (fun _ w => InProgress w₀ name archive w ∧
    (∀ r, engine.rows w.bundle = some r → Descent migrations w₀ r) ∧ Exported engine w) ?_
    fun _ => ?_
  · cases attempted with
    | ok _ =>
      exact guarded_pure fun w _ hw =>
        ⟨hw.1, fun r hr => ((hw.2 () rfl).1 r hr).descent, (hw.2 () rfl).2⟩
    | error e =>
      exact (guarded_of_retaining (guarded_rebuildRegistry h₀ horigin hdirty hmanifest)).of_pre
        fun _ _ hw => ⟨hw.1, trivial⟩
  refine Guarded.bind guarded_finishRecovery fun _ => ?_
  refine Guarded.through (fun _ w => Completed engine migrations w₀ w ∧
    ((maintenance = true ∧ w₀.progress = none) ∨ w.quarantine name = some archive)) ?_
    fun _ => ?_
  · unfold Procedure.whenever
    split
    · rename_i hroutine
      have hbegan : w₀.progress = none := by
        have hnot := hroutine.2
        rwa [hresuming, Option.isSome_eq_false_iff, Option.isNone_iff_eq_none] at hnot
      refine Guarded.through (fun _ w => Completed engine migrations w₀ w ∧
        ((maintenance = true ∧ w₀.progress = none) ∨ w.quarantine name = some archive)) ?_
        fun _ => guarded_effort hI fun _ _ _ _ h => h
      refine guarded_change hI (fun _ _ _ _ h => h) fun w hw hp => ?_
      have hcompleted : Completed engine migrations w₀
          { w with quarantine := Function.update w.quarantine name none } := hp.1
      refine ⟨⟨⟨hw.1.settled, hw.1.intact, fun n hn => ?_, hw.1.failure⟩,
        .inr (.inr hcompleted)⟩, hcompleted, .inl ⟨hroutine.1, hbegan⟩⟩
      exact absurd (hp.1.1.symm.trans hn) (Option.some_ne_none n).symm
    · exact guarded_pure fun _ _ hw => ⟨hw.1, .inr hw.2⟩
  refine guarded_pure fun w _ hw => ⟨hw.1, ?_⟩
  exact hw.2.imp_right fun hkept => ⟨archive, horigin, hkept⟩

/-! ## Automatic recovery -/

/-- A recovery whose error may not count. -/
theorem guarded_whileRequired (h₀ : Consistent engine migrations w₀) (context : Option StoreError)
    (automatic maintenance : Bool) :
    Guarded Marks (Recovering engine migrations w₀) (Untouched w₀)
      (whileRequired context (recoverRegistryWithPolicy engine migrations automatic maintenance))
      fun _ _ => True := by
  have hI : MarkerSafe (Recovering engine migrations w₀) := Recovering.markerSafe
  refine Guarded.bind (guarded_recoverRegistryWithPolicy h₀ automatic maintenance).attempt
    fun result => ?_
  refine Guarded.of_pre (?_ : Guarded Marks _ (fun _ => True) _ _) fun _ _ _ => trivial
  cases result with
  | ok report => exact guarded_pure fun _ _ _ => trivial
  | error e =>
    refine Guarded.through (fun _ _ => True) (guarded_look hI unmarked_true fun _ _ h => h)
      fun required => ?_
    exact guarded_whenever fun _ => guarded_fail

theorem guarded_maintainRegistryIfIdle (h₀ : Consistent engine migrations w₀) :
    Guarded Marks (Recovering engine migrations w₀) (Untouched w₀)
      (maintainRegistryIfIdle engine migrations) fun _ _ => True := by
  refine Guarded.through (fun _ => Untouched w₀)
    (guarded_look Recovering.markerSafe unmarked_untouched fun _ _ h => h) fun deferred => ?_
  unfold Procedure.whenever
  split
  · exact guarded_whileRequired h₀ none true true
  · exact guarded_pure fun _ _ _ => trivial

variable (engine migrations w₀) in
/-- A repair may come before a recovery. -/
def Recovered (w : StateDir File) : Prop :=
  ∃ w₁, Ordinary engine migrations w₀ w₁ ∧ Recovering engine migrations w₁ w

theorem Untouched.self {w : StateDir File} : Untouched w w :=
  ⟨rfl, ⟨rfl, rfl, rfl, rfl⟩, fun _ _ => rfl⟩

theorem Ordinary.recovered {w : StateDir File} (h : Ordinary engine migrations w₀ w) :
    Recovered engine migrations w₀ w :=
  ⟨w, h, Untouched.self.recovering h.1⟩

theorem Recovered.markerSafe : MarkerSafe (Recovered engine migrations w₀) where
  lock w b h := by
    obtain ⟨w₁, hordinary, hrecovering⟩ := h
    exact ⟨w₁, hordinary, Recovering.markerSafe.lock w b hrecovering⟩
  found w reason hreason h := by
    obtain ⟨w₁, hordinary, hrecovering⟩ := h
    exact ⟨w₁, hordinary, Recovering.markerSafe.found w reason hreason hrecovering⟩
  required w reason hreason h := by
    obtain ⟨w₁, hordinary, hrecovering⟩ := h
    exact ⟨w₁, hordinary, Recovering.markerSafe.required w reason hreason hrecovering⟩

/-- An opener first tries the repair, and recovers what the repair leaves. -/
theorem guarded_recoverRegistryAutomatically :
    Guarded Marks (Recovered engine migrations w₀) (Entering engine migrations w₀)
      (recoverRegistryAutomatically engine migrations) fun _ _ => True := by
  have hE : MarkerSafe (Entering engine migrations w₀) := Entering.markerSafe
  refine Guarded.through (fun _ => Entering engine migrations w₀)
    (guarded_look' Recovered.markerSafe.stable hE.stable fun _ _ h => h) fun required => ?_
  unfold Procedure.whenever
  split
  · refine Guarded.through (fun _ => Ordinary engine migrations w₀) ?_ fun repaired => ?_
    · exact Guarded.within (Ordinary engine migrations w₀) (Entering engine migrations w₀)
        (fun _ _ => True) (fun _ _ hw => ⟨hw.ordinary, hw⟩)
        (guarded_tryRepair.attempt.of_ok fun _ _ _ _ => trivial) (fun _ => Ordinary.recovered)
        fun _ _ hw _ => hw
    split
    · refine Guarded.of_pre (Guarded.of_exists fun w₁ => Guarded.of_fact fun hordinary => ?_)
        (fun w _ hw => ⟨w, hw, Untouched.self⟩)
      exact Guarded.within (Recovering engine migrations w₁) (Untouched w₁) (fun _ _ => True)
        (fun w hw hu => by
          obtain ⟨w₂, -, hrecovering⟩ := hw
          exact ⟨hu.recovering hrecovering.1, hu⟩)
        (guarded_whileRequired hordinary.1 _ true false)
        (fun w hw => ⟨w₁, hordinary, hw⟩) fun _ _ _ _ => trivial
    · exact guarded_pure fun _ _ _ => trivial
  · exact guarded_pure fun _ _ _ => trivial

end

end Clt
