/-
  Crash/CrashReports.lean --- the directory of the crash reports: `MakeRoomForNewReport` and
  `main` of `crash_collector.cc`.

  The files of a report have its basename and an extension.  The clean-up counts the dumps
  only, and removes by time whatever is as old as the oldest dump that it counts out.  What
  the system calls and the conversion leave behind is given with each invocation; an
  invocation that returns before the clean-up does not touch the directory and is left out.
-/
import Mathlib.Data.List.Dedup
import DragonDevice.Lib.KthGreatest
import DragonDevice.Lib.Transition

set_option autoImplicit false

namespace DragonDevice.Crash

open DragonDevice.Lib

variable {ρ : Type}

/-! ## The directory -/

/-- What a file of a report is, by its extension. -/
inductive FileKind where
  | core
  | proc
  | dmp
  | metadata
  deriving DecidableEq, Repr

/-- An entry of the directory. -/
structure ReportFile (ρ : Type) where
  report : ρ
  kind : FileKind
  mtime : Int
  deriving DecidableEq, Repr

def ReportFile.name (f : ReportFile ρ) : ρ × FileKind := (f.report, f.kind)

/-- The reports of which there is a file. -/
def reports [DecidableEq ρ] (files : List (ReportFile ρ)) : List ρ := (files.map (·.report)).dedup

/-! ## The clean-up -/

def kMaxNumReports : Nat := 16

/-- `dump_mtimes`. -/
def dumpMtimes (files : List (ReportFile ρ)) : List Int :=
  (files.filter fun f => f.kind = .dmp).map (·.mtime)

/-- `threshold`, when there are dumps enough. -/
def threshold (files : List (ReportFile ρ)) : Option Int :=
  if (dumpMtimes files).length ≥ kMaxNumReports then
    (greatestFirst (dumpMtimes files))[kMaxNumReports - 1]?
  else
    none

/-- The loop over `all_files`.  A removal that fails gives the time that the entry has then:
a directory may have lost some of what it held. -/
def removeOld [DecidableEq ρ] (removal : ReportFile ρ → Option Int) (threshold : Int) :
    List (ReportFile ρ) → List (ReportFile ρ) → Bool × List (ReportFile ρ)
  | [], dir => (true, dir)
  | file :: rest, dir =>
      if file.mtime ≤ threshold then
        match removal file with
        | none =>
            removeOld removal threshold rest (dir.filter fun g => g.name ≠ file.name)
        | some t =>
            (false, dir.map fun g => if g.name = file.name then { g with mtime := t } else g)
      else removeOld removal threshold rest dir

/-- `MakeRoomForNewReport`, with the entries in the order in which they are read, if all of
them can be. -/
def makeRoomForNewReport [DecidableEq ρ] (listing : Option (List (ReportFile ρ)))
    (removal : ReportFile ρ → Option Int) (dir : List (ReportFile ρ)) :
    Bool × List (ReportFile ρ) :=
  match listing with
  | none => (false, dir)
  | some allFiles =>
      match threshold allFiles with
      | none => (true, dir)
      | some t => removeOld removal t allFiles dir

/-! ## An invocation -/

/-- What an invocation meets: the basename, the clean-up, and then how each of the calls
ends.  The times are those that the files have when the call is over. -/
structure Invocation (ρ : Type) where
  report : ρ
  listing : Option (List (ReportFile ρ))
  removal : ReportFile ρ → Option Int
  mkdir : Bool
  /-- The time of the directory for the proc files. -/
  procTime : Int
  /-- The coredump file, if it can be opened. -/
  core : Option Int
  /-- The result of `WriteCoredumpToFD`. -/
  written : Int
  /-- The `unlink` of the coredump file succeeds. -/
  unlinked : Bool
  /-- The minidump file that `WriteMinidump` leaves. -/
  minidump : Option Int
  /-- `RemoveRecursively` of the directory for the proc files, as in `removeOld`. -/
  procRemoval : Option Int
  /-- The result of `WriteStringToFile` for the metadata, and the file that it leaves. -/
  metadata : Bool
  metadataTime : Option Int
  /-- The time when the invocation ends. -/
  finish : Int

namespace Invocation

/-- The file of a kind, if it is there. -/
def file (e : Invocation ρ) (kind : FileKind) (time : Option Int) : List (ReportFile ρ) :=
  time.toList.map fun t => ⟨e.report, kind, t⟩

/-- `WriteCoredump`: its result, and the coredump file. -/
def writeCoredump (e : Invocation ρ) : Int × Option Int :=
  match e.core with
  | none => (-1, none)
  | some t => (e.written, if e.written = -1 ∧ e.unlinked = true then none else some t)

/-- `ConvertCoredumpToMinidump`: the files that are there behind it. -/
def convertCoredumpToMinidump (e : Invocation ρ) (core : Option Int) : List (ReportFile ρ) :=
  e.file .dmp e.minidump ++ e.file .core (if e.unlinked = true then none else core) ++
    e.file .proc e.procRemoval

/-- The files that the part of `main` behind the `mkdir` leaves. -/
def reportFiles (e : Invocation ρ) : List (ReportFile ρ) :=
  let copied := e.writeCoredump
  (if copied.1 > 0 then e.convertCoredumpToMinidump copied.2
    else e.file .core copied.2 ++ e.file .proc (some e.procTime)) ++
    e.file .metadata e.metadataTime

/-- `main` from `MakeRoomForNewReport` on: what it returns, and the directory. -/
def main [DecidableEq ρ] (e : Invocation ρ) (dir : List (ReportFile ρ)) :
    Nat × List (ReportFile ρ) :=
  let room := makeRoomForNewReport e.listing e.removal dir
  if room.1 = false then (1, room.2)
  else if e.mkdir = false then (1, room.2)
  else (if e.metadata = true then 0 else 1, room.2 ++ e.reportFiles)

end Invocation

/-! ## Runs -/

/-- The directory, the latest time so far, and the basenames so far. -/
structure Disk (ρ : Type) where
  files : List (ReportFile ρ)
  now : Int
  names : List ρ

/-- The collector, on a directory that is empty at first. -/
def collector (ρ : Type) [DecidableEq ρ] : System (Disk ρ) (Invocation ρ) where
  start s := s.files = [] ∧ s.names = []
  next s e := some ⟨(e.main s.files).2, e.finish, e.report :: s.names⟩

namespace Invocation

/-- The times of the files in the order of the calls. -/
def times (e : Invocation ρ) : List Int :=
  e.procTime :: e.core.toList ++ e.minidump.toList ++ e.procRemoval.toList ++
    e.metadataTime.toList

/-- An invocation as there can be: a basename of its own, times that do not go back, and the
entries of the directory in some order. -/
structure Valid (s : Disk ρ) (e : Invocation ρ) : Prop where
  fresh : e.report ∉ s.names
  listing : ∀ allFiles, e.listing = some allFiles → allFiles.Perm s.files
  times : (s.now :: e.times ++ [e.finish]).Pairwise (· ≤ ·)
  removal : ∀ f ∈ s.files, ∀ t, e.removal f = some t →
    t = f.mtime ∨ s.now ≤ t ∧ t ≤ e.finish
  metadata : e.metadata = true → e.metadataTime.isSome = true

end Invocation

/-! ## What an invocation leaves -/

/-- The files of one report are of different kinds, and one of them can be a dump. -/
theorem reportFiles_eq (e : Invocation ρ) : ∃ minidump core proc metadata,
    e.reportFiles = e.file .dmp minidump ++ e.file .core core ++ e.file .proc proc ++
      e.file .metadata metadata := by
  rw [Invocation.reportFiles]
  split
  · exact ⟨_, _, _, _, rfl⟩
  · exact ⟨none, _, _, _, rfl⟩

theorem report_of_mem_reportFiles {e : Invocation ρ} {f : ReportFile ρ} (hf : f ∈ e.reportFiles) :
    f.report = e.report := by
  obtain ⟨minidump, core, proc, metadata, hfiles⟩ := reportFiles_eq e
  rw [hfiles, List.mem_append, List.mem_append, List.mem_append] at hf
  rcases hf with ((hf | hf) | hf) | hf <;>
    exact (List.mem_map.mp hf).elim fun _ h => h.2 ▸ rfl

theorem nodup_reportFiles (e : Invocation ρ) : (e.reportFiles.map (·.name)).Nodup := by
  obtain ⟨minidump, core, proc, metadata, hfiles⟩ := reportFiles_eq e
  rw [hfiles]
  cases minidump <;> cases core <;> cases proc <;> cases metadata <;>
    simp [Invocation.file, ReportFile.name]

theorem length_dumpMtimes_reportFiles (e : Invocation ρ) :
    (dumpMtimes e.reportFiles).length ≤ 1 := by
  obtain ⟨minidump, core, proc, metadata, hfiles⟩ := reportFiles_eq e
  rw [hfiles]
  cases minidump <;> cases core <;> cases proc <;> cases metadata <;>
    simp [Invocation.file, dumpMtimes]

/-! ## Reports with a dump -/

variable {files : List (ReportFile ρ)}

/-- Every file has a dump of its report beside it that is as new. -/
structure Dumped (files : List (ReportFile ρ)) : Prop where
  names : (files.map (·.name)).Nodup
  dump : ∀ f ∈ files, ∃ d ∈ files, d.report = f.report ∧ d.kind = .dmp ∧ f.mtime ≤ d.mtime

/-- Files of other reports beside them. -/
theorem Dumped.append (h : Dumped files) {files' : List (ReportFile ρ)} (h' : Dumped files')
    (hother : ∀ f ∈ files, ∀ g ∈ files', f.report ≠ g.report) : Dumped (files ++ files') := by
  constructor
  · rw [List.map_append]
    refine List.nodup_append.mpr ⟨h.names, h'.names, ?_⟩
    intro n hn n' hn' heq
    obtain ⟨f, hf, rfl⟩ := List.mem_map.mp hn
    obtain ⟨g, hg, rfl⟩ := List.mem_map.mp hn'
    exact hother f hf g hg (congrArg Prod.fst heq)
  · intro f hf
    rcases List.mem_append.mp hf with hf | hf
    · obtain ⟨d, hd, hspec⟩ := h.dump f hf
      exact ⟨d, List.mem_append_left _ hd, hspec⟩
    · obtain ⟨d, hd, hspec⟩ := h'.dump f hf
      exact ⟨d, List.mem_append_right _ hd, hspec⟩

/-! ## What a clean-up removes -/

/-- The entries that are removed before a removal fails. -/
def removedFirst (removal : ReportFile ρ → Option Int) (t : Int) (all : List (ReportFile ρ)) :
    List (ReportFile ρ) :=
  (all.filter fun f => f.mtime ≤ t).takeWhile fun f => (removal f).isNone

variable {removal : ReportFile ρ → Option Int} {t : Int}

theorem dumpMtimes_append (files files' : List (ReportFile ρ)) :
    dumpMtimes (files ++ files') = dumpMtimes files ++ dumpMtimes files' := by
  rw [dumpMtimes, List.filter_append, List.map_append]
  rfl

theorem dumpMtimes_perm {files' : List (ReportFile ρ)} (h : files.Perm files') :
    (dumpMtimes files).Perm (dumpMtimes files') :=
  (h.filter _).map _

/-- Behind the removal of everything that is old there is room for one more dump. -/
theorem length_dumpMtimes_new_lt (h : threshold files = some t) :
    (dumpMtimes (files.filter fun f => ¬ f.mtime ≤ t)).length < kMaxNumReports := by
  rw [threshold] at h
  split at h
  · have hle := length_filter_above_le h
    have hdumps : dumpMtimes (files.filter fun f => ¬ f.mtime ≤ t) =
        (dumpMtimes files).filter fun a => t < a := by
      rw [dumpMtimes, dumpMtimes, List.filter_map, List.filter_filter, List.filter_filter]
      refine congrArg _ (List.filter_congr fun f _ => ?_)
      rw [Bool.and_comm, Function.comp_apply, decide_eq_decide.mpr Int.not_le]
    rw [hdumps]
    exact Nat.lt_of_le_of_lt hle (by decide)
  · cases h

/-- An entry that is not old enough is passed over. -/
theorem removedFirst_cons_new {f : ReportFile ρ} {rest : List (ReportFile ρ)}
    (hnew : ¬ f.mtime ≤ t) : removedFirst removal t (f :: rest) = removedFirst removal t rest := by
  rw [removedFirst, List.filter_cons_of_neg (by simpa using hnew), removedFirst]

theorem removedFirst_cons_removed {f : ReportFile ρ} {rest : List (ReportFile ρ)}
    (hold : f.mtime ≤ t) (hgone : removal f = none) :
    removedFirst removal t (f :: rest) = f :: removedFirst removal t rest := by
  rw [removedFirst, List.filter_cons_of_pos (by simpa using hold),
    List.takeWhile_cons_of_pos (by rw [hgone]; rfl), removedFirst]

theorem removedFirst_cons_failed {f : ReportFile ρ} {rest : List (ReportFile ρ)} {t' : Int}
    (hold : f.mtime ≤ t) (hfails : removal f = some t') :
    removedFirst removal t (f :: rest) = [] := by
  rw [removedFirst, List.filter_cons_of_pos (by simpa using hold),
    List.takeWhile_cons_of_neg (by rw [hfails]; exact Bool.false_ne_true)]

variable [DecidableEq ρ]

/-- The loop leaves what it did not remove, when an entry whose removal stops it keeps its time;
if no removal fails it has removed all that is old. -/
theorem removeOld_spec :
    ∀ {all dir : List (ReportFile ρ)},
      (∀ f ∈ all, ∀ g ∈ dir, g.name = f.name → g = f) →
      ((removeOld removal t all dir).1 = false →
        ∀ f ∈ all, ∀ t', removal f = some t' → t' = f.mtime) →
      (removeOld removal t all dir).2 = dir.filter (fun g => g ∉ removedFirst removal t all) ∧
        ((removeOld removal t all dir).1 = true →
          ∀ f ∈ all, f.mtime ≤ t → f ∈ removedFirst removal t all) := by
  intro all
  induction all with
  | nil =>
      intro dir _ _
      refine ⟨?_, fun _ f hf => absurd hf List.not_mem_nil⟩
      rw [removeOld, removedFirst, List.filter_nil, List.takeWhile_nil, List.filter_eq_self.mpr]
      intro g _
      rw [decide_eq_true_iff]
      exact List.not_mem_nil
  | cons f rest ih =>
      intro dir hnames htimes
      obtain ⟨hname, hnames⟩ := List.forall_mem_cons.mp hnames
      rw [removeOld] at htimes ⊢
      by_cases hold : f.mtime ≤ t
      · rw [if_pos hold] at htimes ⊢
        cases hremoval : removal f with
        | none =>
            rw [hremoval] at htimes
            have hsame : dir.filter (fun g => g.name ≠ f.name) = dir.filter (fun g => g ≠ f) :=
              List.filter_congr fun g hg => by
                rw [decide_eq_decide]
                exact not_congr ⟨hname g hg, congrArg ReportFile.name⟩
            obtain ⟨hleft, hall⟩ := @ih (dir.filter fun g => g.name ≠ f.name)
              (fun x hx g hg => hnames x hx g (List.mem_of_mem_filter hg))
              (fun hstops => (List.forall_mem_cons.mp (htimes hstops)).2)
            rw [removedFirst_cons_removed hold hremoval]
            dsimp only
            refine ⟨?_, fun hok x hx hx' => ?_⟩
            · rw [hleft, hsame, List.filter_filter]
              refine List.filter_congr fun g _ => ?_
              rw [← Bool.decide_and, decide_eq_decide, List.mem_cons, not_or, and_comm]
            · rcases List.mem_cons.mp hx with rfl | hx
              · exact List.mem_cons_self
              · exact List.mem_cons_of_mem _ (hall hok x hx hx')
        | some t' =>
            rw [hremoval] at htimes
            have htime := (List.forall_mem_cons.mp (htimes rfl)).1 t' hremoval
            rw [removedFirst_cons_failed hold hremoval]
            dsimp only
            refine ⟨?_, fun hok => absurd hok Bool.false_ne_true⟩
            rw [List.filter_eq_self.mpr fun g _ => decide_eq_true List.not_mem_nil]
            refine (List.map_congr_left fun g hg => ?_).trans (List.map_id dir)
            split
            · rename_i hg'
              rw [hname g hg hg', htime]
              rfl
            · rfl
      · rw [if_neg hold] at htimes ⊢
        rw [removedFirst_cons_new hold]
        obtain ⟨hleft, hall⟩ :=
          ih hnames fun hstops => (List.forall_mem_cons.mp (htimes hstops)).2
        refine ⟨hleft, fun hok => List.forall_mem_cons.mpr ⟨fun h => absurd h hold, hall hok⟩⟩

omit [DecidableEq ρ] in
theorem mtime_le_of_mem_removedFirst {all : List (ReportFile ρ)} {f : ReportFile ρ}
    (h : f ∈ removedFirst removal t all) : f.mtime ≤ t :=
  of_decide_eq_true (List.mem_filter.mp ((List.takeWhile_prefix _).subset h)).2

/-! ## Dumps and reports -/

/-- There are no more reports than dumps. -/
theorem Dumped.length_reports_le (h : Dumped files) :
    (reports files).length ≤ (dumpMtimes files).length := by
  have hsub : reports files ⊆ (files.filter fun f => f.kind = .dmp).map (·.report) := by
    intro r hr
    rw [reports, List.mem_dedup] at hr
    obtain ⟨f, hf, rfl⟩ := List.mem_map.mp hr
    obtain ⟨d, hd, hreport, hkind, -⟩ := h.dump f hf
    exact List.mem_map.mpr
      ⟨d, List.mem_filter.mpr ⟨hd, decide_eq_true hkind⟩, hreport⟩
  have hlen := (List.subperm_of_subset (List.nodup_dedup _) hsub).length_le
  rw [List.length_map] at hlen
  rw [dumpMtimes, List.length_map]
  exact hlen

/-- What is left of a directory in which a report loses its dump with all of its files. -/
theorem Dumped.filter (h : Dumped files) {gone : List (ReportFile ρ)}
    (hwhole : ∀ d ∈ gone, d.kind = .dmp → ∀ f ∈ files, f.report = d.report → f ∈ gone) :
    Dumped (files.filter fun f => f ∉ gone) := by
  refine ⟨h.names.sublist (List.filter_sublist.map _), fun f hf => ?_⟩
  obtain ⟨hfile, hkept⟩ := List.mem_filter.mp hf
  rw [decide_eq_true_iff] at hkept
  obtain ⟨d, hd, hreport, hkind, hle⟩ := h.dump f hfile
  refine ⟨d, List.mem_filter.mpr ⟨hd, decide_eq_true fun hgone => ?_⟩, hreport, hkind, hle⟩
  exact hkept (hwhole d hgone hkind f hfile hreport.symm)

/-- The entries that a clean-up removes. -/
def Invocation.removed (e : Invocation ρ) : List (ReportFile ρ) :=
  match e.listing with
  | none => []
  | some allFiles =>
      match threshold allFiles with
      | none => []
      | some t => removedFirst e.removal t allFiles

namespace Invocation

/-- The invocation does not leave a part of a report: it leaves nothing, or a dump that is as
new as its other files; and a clean-up that a failed removal stops has taken no dump whose
report has another file left, nor touched an entry that it failed to remove. -/
structure Tidy (s : Disk ρ) (e : Invocation ρ) : Prop where
  dump : e.mkdir = true → e.reportFiles = [] ∨
    ∃ d ∈ e.reportFiles, d.kind = .dmp ∧ ∀ f ∈ e.reportFiles, f.mtime ≤ d.mtime
  whole : (makeRoomForNewReport e.listing e.removal s.files).1 = false →
    ∀ d ∈ e.removed, d.kind = .dmp → ∀ f ∈ s.files, f.report = d.report → f ∈ e.removed
  untouched : (makeRoomForNewReport e.listing e.removal s.files).1 = false →
    ∀ f ∈ s.files, ∀ t, e.removal f = some t → t = f.mtime

end Invocation

/-! ## One invocation -/

section Step

variable {s : Disk ρ} {e : Invocation ρ}

/-- What the loop over the entries does, when there is a threshold. -/
theorem removeOld_of_threshold (hnames : (s.files.map (·.name)).Nodup) (hvalid : e.Valid s)
    (htidy : e.Tidy s) {allFiles : List (ReportFile ρ)} {t : Int}
    (hlisting : e.listing = some allFiles) (hthreshold : threshold allFiles = some t) :
    (removeOld e.removal t allFiles s.files).2 =
        s.files.filter (fun g => g ∉ removedFirst e.removal t allFiles) ∧
      ((removeOld e.removal t allFiles s.files).1 = true →
        ∀ f ∈ s.files, f.mtime ≤ t → f ∈ removedFirst e.removal t allFiles) := by
  have hperm := hvalid.listing allFiles hlisting
  have huntouched := htidy.untouched
  unfold makeRoomForNewReport at huntouched
  rw [hlisting] at huntouched
  dsimp only at huntouched
  rw [hthreshold] at huntouched
  obtain ⟨hleft, hall⟩ := @removeOld_spec ρ e.removal t _ allFiles s.files
    (fun f hf g hg => List.inj_on_of_nodup_map hnames hg (hperm.mem_iff.mp hf))
    (fun hstops f hf => huntouched hstops f (hperm.mem_iff.mp hf))
  exact ⟨hleft, fun hok f hf => hall hok f (hperm.mem_iff.mpr hf)⟩

/-- The clean-up leaves what it did not remove, and room for one more report when it
succeeds. -/
theorem makeRoomForNewReport_spec (hnames : (s.files.map (·.name)).Nodup) (hvalid : e.Valid s)
    (htidy : e.Tidy s) :
    (makeRoomForNewReport e.listing e.removal s.files).2 =
        s.files.filter (fun f => f ∉ e.removed) ∧
      ((makeRoomForNewReport e.listing e.removal s.files).1 = true →
        (dumpMtimes (s.files.filter fun f => f ∉ e.removed)).length < kMaxNumReports) := by
  have hnone : s.files.filter (fun f => f ∉ ([] : List (ReportFile ρ))) = s.files :=
    List.filter_eq_self.mpr fun f _ => decide_eq_true List.not_mem_nil
  unfold makeRoomForNewReport
  cases hlisting : e.listing with
  | none =>
      have hremoved : e.removed = [] := by rw [Invocation.removed, hlisting]
      rw [hremoved]
      exact ⟨hnone.symm, fun h => absurd h Bool.false_ne_true⟩
  | some allFiles =>
      have hperm := hvalid.listing allFiles hlisting
      dsimp only
      cases hthreshold : threshold allFiles with
      | none =>
          have hremoved : e.removed = [] := by
            rw [Invocation.removed, hlisting]
            dsimp only
            rw [hthreshold]
          rw [hremoved]
          refine ⟨hnone.symm, fun _ => ?_⟩
          rw [hnone, ← (dumpMtimes_perm hperm).length_eq]
          rw [threshold] at hthreshold
          split at hthreshold
          · rename_i hmany
            rw [List.getElem?_eq_none_iff, (perm_greatestFirst _).length_eq] at hthreshold
            have hmax : 0 < kMaxNumReports := by decide
            omega
          · omega
      | some t =>
          have hremoved : e.removed = removedFirst e.removal t allFiles := by
            rw [Invocation.removed, hlisting]
            dsimp only
            rw [hthreshold]
          rw [hremoved]
          obtain ⟨hleft, hall⟩ := removeOld_of_threshold hnames hvalid htidy hlisting hthreshold
          refine ⟨hleft, fun hok => ?_⟩
          have hsub : s.files.filter (fun f => f ∉ removedFirst e.removal t allFiles) =
              s.files.filter fun f => ¬ f.mtime ≤ t :=
            List.filter_congr fun f hf => by
              rw [decide_eq_decide]
              exact not_congr ⟨mtime_le_of_mem_removedFirst, hall hok f hf⟩
          rw [hsub, ← (dumpMtimes_perm (hperm.filter _)).length_eq]
          exact length_dumpMtimes_new_lt hthreshold

/-- A clean-up that takes a dump takes all files of its report.  When it succeeds it is the
threshold that sees to this: no file of a report is newer than the dump, and whatever is as old
as the threshold is gone. -/
theorem removed_whole (hdumped : Dumped s.files) (hvalid : e.Valid s) (htidy : e.Tidy s) :
    ∀ d ∈ e.removed, d.kind = .dmp → ∀ f ∈ s.files, f.report = d.report → f ∈ e.removed := by
  cases hok : (makeRoomForNewReport e.listing e.removal s.files).1 with
  | false => exact htidy.whole hok
  | true =>
      intro d hd hkind f hf hreport
      unfold Invocation.removed at hd ⊢
      unfold makeRoomForNewReport at hok
      cases hlisting : e.listing with
      | none =>
          rw [hlisting] at hd
          exact absurd hd List.not_mem_nil
      | some allFiles =>
          rw [hlisting] at hd hok
          dsimp only at hd hok ⊢
          cases hthreshold : threshold allFiles with
          | none =>
              rw [hthreshold] at hd
              exact absurd hd List.not_mem_nil
          | some t =>
              rw [hthreshold] at hd hok
              dsimp only at hd hok ⊢
              have hdfile : d ∈ s.files := by
                rw [← (hvalid.listing allFiles hlisting).mem_iff]
                exact List.mem_of_mem_filter ((List.takeWhile_prefix _).subset hd)
              -- the dump beside `f` is `d`, as there is one file of each name
              obtain ⟨d', hd', hreport', hkind', hle⟩ := hdumped.dump f hf
              have hsame : d' = d := List.inj_on_of_nodup_map hdumped.names hd' hdfile
                (Prod.ext (hreport'.trans hreport) (hkind'.trans hkind.symm))
              have hold : f.mtime ≤ t := by
                rw [hsame] at hle
                exact hle.trans (mtime_le_of_mem_removedFirst hd)
              exact (removeOld_of_threshold hdumped.names hvalid htidy hlisting hthreshold).2
                hok f hf hold

theorem dumped_reportFiles (htidy : e.Tidy s) (hmkdir : e.mkdir = true) :
    Dumped e.reportFiles := by
  refine ⟨nodup_reportFiles e, fun f hf => ?_⟩
  rcases htidy.dump hmkdir with hnone | ⟨d, hd, hkind, hnewest⟩
  · rw [hnone] at hf
    exact absurd hf List.not_mem_nil
  · have hreport := (report_of_mem_reportFiles hd).trans (report_of_mem_reportFiles hf).symm
    exact ⟨d, hd, hreport, hkind, hnewest f hf⟩

/-- Every report has its dump, and its basename is one of those that were used. -/
structure Kept (s : Disk ρ) : Prop where
  dumped : Dumped s.files
  names : ∀ f ∈ s.files, f.report ∈ s.names

/-- One invocation: the reports have their dumps, and there are no more dumps than there may
be. -/
theorem main_dumped (hkept : Kept s) (hvalid : e.Valid s) (htidy : e.Tidy s) :
    Dumped (e.main s.files).2 ∧
      ((makeRoomForNewReport e.listing e.removal s.files).1 = true →
        (dumpMtimes (e.main s.files).2).length ≤ kMaxNumReports) := by
  obtain ⟨hleft, hroom⟩ := makeRoomForNewReport_spec hkept.dumped.names hvalid htidy
  have hdumped := hkept.dumped.filter (removed_whole hkept.dumped hvalid htidy)
  rw [Invocation.main, hleft]
  split
  · rename_i hfails
    exact ⟨hdumped, fun hok => absurd (hok.symm.trans hfails) (by decide)⟩
  · split
    · exact ⟨hdumped, fun hok => Nat.le_of_lt (hroom hok)⟩
    · rename_i hmkdir
      have hnew := dumped_reportFiles htidy (by simpa using hmkdir)
      constructor
      · refine hdumped.append hnew fun f hf g hg heq => hvalid.fresh ?_
        rw [← report_of_mem_reportFiles hg, ← heq]
        exact hkept.names f (List.mem_of_mem_filter hf)
      · intro hok
        have hone := length_dumpMtimes_reportFiles e
        have hless := hroom hok
        dsimp only
        rw [dumpMtimes_append, List.length_append]
        omega

/-- Only files of the invocation come to the directory. -/
theorem report_of_mem_main (hnames : (s.files.map (·.name)).Nodup) (hvalid : e.Valid s)
    (htidy : e.Tidy s) {f : ReportFile ρ} (hf : f ∈ (e.main s.files).2) :
    f ∈ s.files ∨ f.report = e.report := by
  have hleft := (makeRoomForNewReport_spec hnames hvalid htidy).1
  have hold : ∀ f ∈ (makeRoomForNewReport e.listing e.removal s.files).2, f ∈ s.files := by
    intro f hf
    rw [hleft] at hf
    exact List.mem_of_mem_filter hf
  rw [Invocation.main] at hf
  split at hf
  · exact Or.inl (hold f hf)
  · split at hf
    · exact Or.inl (hold f hf)
    · rcases List.mem_append.mp hf with hf | hf
      · exact Or.inl (hold f hf)
      · exact Or.inr (report_of_mem_reportFiles hf)

end Step

/-! ## A crash on its own -/

section Crash

/-- An invocation with nothing in its way but the copy of the coredump, which may fail. -/
def crash (copied : Bool) (files : List (ReportFile Nat)) (report : Nat) (time : Int) :
    Invocation Nat where
  report := report
  listing := some files
  removal _ := none
  mkdir := true
  procTime := time
  core := some time
  written := if copied = true then 1 else -1
  unlinked := true
  minidump := some time
  procRemoval := none
  metadata := true
  metadataTime := some time
  finish := time

variable {copied : Bool} {files : List (ReportFile Nat)} {s : Disk Nat} {r : Nat} {t : Int}

theorem reportFiles_crash (copied : Bool) (files : List (ReportFile Nat)) (r : Nat) (t : Int) :
    (crash copied files r t).reportFiles =
      [⟨r, if copied = true then .dmp else .proc, t⟩, ⟨r, .metadata, t⟩] := by
  cases copied <;> rfl

theorem valid_crash (copied : Bool) (hfresh : r ∉ s.names) (hnow : s.now ≤ t) :
    (crash copied s.files r t).Valid s where
  fresh := hfresh
  listing allFiles h := by
    cases h
    exact List.Perm.refl _
  times := by simp [Invocation.times, crash, hnow]
  removal f _ t' h := by cases h
  metadata _ := rfl

theorem removeOld_ok (t : Int) (all dir : List (ReportFile Nat)) :
    (removeOld (fun _ => none) t all dir).1 = true := by
  induction all generalizing dir with
  | nil => rfl
  | cons f rest ih =>
      rw [removeOld]
      split
      · exact ih _
      · exact ih dir

/-- A clean-up of which no call fails succeeds. -/
theorem makeRoomForNewReport_ok (files : List (ReportFile Nat)) :
    (makeRoomForNewReport (some files) (fun _ => none) files).1 = true := by
  rw [makeRoomForNewReport]
  cases threshold files with
  | none => rfl
  | some t => exact removeOld_ok t files files

theorem main_crash (copied : Bool) (files : List (ReportFile Nat)) (r : Nat) (t : Int) :
    ((crash copied files r t).main files).2 =
      (makeRoomForNewReport (some files) (fun _ => none) files).2 ++
        (crash copied files r t).reportFiles := by
  have hroom : (makeRoomForNewReport (crash copied files r t).listing
      (crash copied files r t).removal files).1 = true := makeRoomForNewReport_ok files
  rw [Invocation.main, hroom]
  rfl

/-- A crash with a minidump is tidy. -/
theorem tidy_crash (s : Disk Nat) (r : Nat) (t : Int) : (crash true s.files r t).Tidy s := by
  have hroom : (makeRoomForNewReport (crash true s.files r t).listing
      (crash true s.files r t).removal s.files).1 = true := makeRoomForNewReport_ok s.files
  constructor
  · intro _
    rw [reportFiles_crash]
    exact Or.inr ⟨_, List.mem_cons_self, rfl, by simp⟩
  · exact fun hstops => absurd (hroom.symm.trans hstops) (by decide)
  · exact fun hstops => absurd (hroom.symm.trans hstops) (by decide)

end Crash

/-! ## A run -/

theorem kept_of_reachable {s : Disk ρ}
    (h : (collector ρ).Reachable (fun s e => e.Valid s ∧ e.Tidy s) s) : Kept s := by
  refine h.invariant (fun s hstart => ?_) (fun s e s' hkept hok hnext => ?_)
  · constructor
    · rw [hstart.1]
      exact ⟨List.nodup_nil, fun f hf => absurd hf List.not_mem_nil⟩
    · rw [hstart.1]
      exact fun f hf => absurd hf List.not_mem_nil
  · cases hnext
    refine ⟨(main_dumped hkept hok.1 hok.2).1, fun f hf => ?_⟩
    rcases report_of_mem_main hkept.dumped.names hok.1 hok.2 hf with hold | hnew
    · exact List.mem_cons_of_mem _ (hkept.names f hold)
    · rw [hnew]
      exact List.mem_cons_self

/-- The directory after crashes with minidumps, one at each time. -/
def tidyCrashes : Nat → Disk Nat
  | 0 => ⟨[], 0, []⟩
  | n + 1 =>
      let before := tidyCrashes n
      ⟨((crash true before.files n n).main before.files).2, n, n :: before.names⟩

theorem tidyCrashes_fresh (n : Nat) :
    (∀ x ∈ (tidyCrashes n).names, x < n) ∧ (tidyCrashes n).now ≤ n := by
  induction n with
  | zero => exact ⟨fun x hx => absurd hx List.not_mem_nil, Int.le_refl 0⟩
  | succ n ih =>
      refine ⟨fun x hx => ?_, Int.ofNat_le.mpr (Nat.le_succ n)⟩
      rcases List.mem_cons.mp hx with rfl | hx
      · exact Nat.lt_succ_self _
      · exact Nat.lt_succ_of_lt (ih.1 x hx)

theorem valid_tidyCrashes (n : Nat) :
    (crash true (tidyCrashes n).files n n).Valid (tidyCrashes n) := by
  obtain ⟨hnames, hnow⟩ := tidyCrashes_fresh n
  exact valid_crash true (fun hin => Nat.lt_irrefl n (hnames n hin)) hnow

theorem tidyCrashes_reachable (n : Nat) :
    (collector Nat).Reachable (fun s e => e.Valid s ∧ e.Tidy s) (tidyCrashes n) := by
  induction n with
  | zero => exact .start ⟨rfl, rfl⟩
  | succ n ih => exact ih.step ⟨valid_tidyCrashes n, tidy_crash _ n n⟩ rfl

section Crashes

variable {copied : Bool} {files : List (ReportFile Nat)} {s : Disk Nat} {r : Nat} {t : Int}

/-- The directory after some crashes, while there are not so many dumps as to be cleaned
up. -/
def crashes (copied : Bool) (s : Disk Nat) (r : Nat) (t : Int) : Nat → Disk Nat
  | 0 => s
  | n + 1 =>
      let before := crashes copied s r t n
      ⟨before.files ++ (crash copied before.files (r + n) (t + n)).reportFiles, t + n,
        (r + n) :: before.names⟩

theorem main_crash_of_room (h : (dumpMtimes files).length < kMaxNumReports) :
    ((crash copied files r t).main files).2 = files ++ (crash copied files r t).reportFiles := by
  have hnone : threshold files = none := by
    rw [threshold, if_neg (Nat.not_le_of_lt h)]
  rw [main_crash, makeRoomForNewReport, hnone]

theorem crashes_names (hr : ∀ x ∈ s.names, x < r) :
    ∀ n, ∀ x ∈ (crashes copied s r t n).names, x < r + n := by
  intro n
  induction n with
  | zero => exact hr
  | succ n ih =>
      intro x hx
      rcases List.mem_cons.mp hx with rfl | hx
      · exact Nat.lt_succ_self _
      · exact Nat.lt_succ_of_lt (ih x hx)

theorem crashes_now (hnow : s.now ≤ t) : ∀ n, (crashes copied s r t n).now ≤ t + n := by
  intro n
  cases n with
  | zero => exact hnow.trans (Int.le_of_eq (Int.add_zero t).symm)
  | succ n =>
      change t + (n : Int) ≤ t + ((n + 1 : Nat) : Int)
      omega

/-- A run of crashes. -/
theorem crashes_reachable (hr : ∀ x ∈ s.names, x < r) (hnow : s.now ≤ t) :
    ∀ n, (∀ i < n, (dumpMtimes (crashes copied s r t i).files).length < kMaxNumReports) →
      ((collector Nat).resumed s).Reachable
        (fun s e => e.Valid s ∧ ∃ r t, e = crash copied s.files r t)
        (crashes copied s r t n) := by
  intro n
  induction n with
  | zero => exact fun _ => .start rfl
  | succ n ih =>
      intro hfew
      have hfresh : r + n ∉ (crashes copied s r t n).names :=
        fun hin => Nat.lt_irrefl _ (crashes_names hr n _ hin)
      have hmain := (@main_crash_of_room copied _ (r + n) (t + n) (hfew n (Nat.lt_succ_self n)))
      refine (ih fun i hi => hfew i (Nat.lt_succ_of_lt hi)).step
        ⟨valid_crash copied hfresh (crashes_now hnow n), r + n, t + n, rfl⟩ ?_
      rw [crashes, ← hmain]
      rfl

/-- Each of the crashes has left a file. -/
theorem crashes_report (copied : Bool) (s : Disk Nat) (r : Nat) (t : Int) {n i : Nat} (hi : i < n) :
    ∃ f ∈ (crashes copied s r t n).files, f.report = r + i ∧ f.mtime = t + i := by
  induction n with
  | zero => exact absurd hi (Nat.not_lt_zero i)
  | succ n ih =>
      rw [crashes]
      dsimp only
      rw [reportFiles_crash]
      rcases Nat.lt_succ_iff_lt_or_eq.mp hi with hlt | rfl
      · obtain ⟨f, hf, hspec⟩ := ih hlt
        exact ⟨f, List.mem_append_left _ hf, hspec⟩
      · exact ⟨_, List.mem_append_right _ List.mem_cons_self, rfl, rfl⟩

/-- The directory after the first crashes, none of which gets a dump. -/
def failedCrashes (n : Nat) : Disk Nat := crashes false ⟨[], 0, []⟩ 0 0 n

theorem dumpMtimes_failedCrashes (n : Nat) : dumpMtimes (failedCrashes n).files = [] := by
  unfold failedCrashes
  induction n with
  | zero => rfl
  | succ n ih =>
      rw [crashes, dumpMtimes_append, ih, reportFiles_crash]
      rfl

theorem failedCrashes_reachable (n : Nat) :
    (collector Nat).Reachable (fun s e => e.Valid s) (failedCrashes n) := by
  have hrun := @crashes_reachable false ⟨[], 0, []⟩ 0 0
    (fun x hx => absurd hx List.not_mem_nil) (Int.le_refl 0) n
    (fun i _ => by
      rw [show crashes false ⟨[], 0, []⟩ 0 0 i = failedCrashes i from rfl,
        dumpMtimes_failedCrashes]
      decide)
  refine hrun.invariant (fun s hs => ?_) (fun s e s' hs hok hnext => hs.step hok.1 hnext)
  rw [show s = ⟨[], 0, []⟩ from hs]
  exact .start ⟨rfl, rfl⟩

/-- A list of different reports of which there are files. -/
theorem length_le_reports {l : List Nat} (hl : l.Nodup)
    (h : ∀ x ∈ l, ∃ f ∈ files, f.report = x) : l.length ≤ (reports files).length := by
  refine (List.subperm_of_subset hl fun x hx => ?_).length_le
  obtain ⟨f, hf, rfl⟩ := h x hx
  rw [reports, List.mem_dedup]
  exact List.mem_map_of_mem hf

/-- Reports without a dump are not counted: there is no bound on them. -/
theorem failedCrashes_pile_up (n : Nat) :
    let e := crash false (failedCrashes n).files n n
    e.Valid (failedCrashes n) ∧
      (makeRoomForNewReport e.listing e.removal (failedCrashes n).files).1 = true ∧
      n < (reports (e.main (failedCrashes n).files).2).length := by
  have hnames := @crashes_names false ⟨[], 0, []⟩ 0 0 (fun x hx => absurd hx List.not_mem_nil) n
  have hnow := @crashes_now false ⟨[], 0, []⟩ 0 0 (Int.le_refl 0) n
  rw [Nat.zero_add] at hnames
  rw [Int.zero_add] at hnow
  have hmain := @main_crash_of_room false (failedCrashes n).files n n
    (by rw [dumpMtimes_failedCrashes]; decide)
  refine ⟨valid_crash false (fun hin => Nat.lt_irrefl _ (hnames n hin)) hnow,
    makeRoomForNewReport_ok _, ?_⟩
  rw [hmain]
  refine Nat.lt_of_lt_of_le (show n < (List.range (n + 1)).length by simp)
    (length_le_reports List.nodup_range fun i hi => ?_)
  rcases Nat.lt_succ_iff_lt_or_eq.mp (List.mem_range.mp hi) with hlt | rfl
  · obtain ⟨f, hf, hreport, -⟩ := crashes_report false ⟨[], 0, []⟩ 0 0 hlt
    exact ⟨f, List.mem_append_left _ hf, hreport.trans (Nat.zero_add i)⟩
  · rw [reportFiles_crash]
    exact ⟨_, List.mem_append_right _ List.mem_cons_self, rfl⟩

/-- A file that is newer than the threshold stays, if it is the only one of its name. -/
theorem mem_removeOld {g : ReportFile Nat} {thr : Int} :
    ∀ {all dir : List (ReportFile Nat)}, (∀ x ∈ all, x.name = g.name → ¬ x.mtime ≤ thr) →
      g ∈ dir → g ∈ (removeOld (fun _ => none) thr all dir).2 := by
  intro all
  induction all with
  | nil => exact fun _ hg => hg
  | cons f rest ih =>
      intro dir hname hg
      obtain ⟨hf, hrest⟩ := List.forall_mem_cons.mp hname
      rw [removeOld]
      split
      · rename_i hold
        refine ih hrest (List.mem_filter.mpr ⟨hg, decide_eq_true fun hsame => ?_⟩)
        exact hf hsame.symm hold
      · exact ih hrest hg

/-- Such a file stays in a clean-up without failures. -/
theorem mem_makeRoomForNewReport {g : ReportFile Nat} (hg : g ∈ files)
    (hnew : ∀ thr, threshold files = some thr → ∀ x ∈ files, x.name = g.name → ¬ x.mtime ≤ thr) :
    g ∈ (makeRoomForNewReport (some files) (fun _ => none) files).2 := by
  rw [makeRoomForNewReport]
  cases hthreshold : threshold files with
  | none => exact hg
  | some thr => exact mem_removeOld (hnew thr hthreshold) hg

theorem subset_crashes (copied : Bool) (s : Disk Nat) (r : Nat) (t : Int) (n : Nat) :
    s.files ⊆ (crashes copied s r t n).files := by
  induction n with
  | zero => exact List.Subset.refl _
  | succ n ih => exact fun x hx => List.mem_append_left _ (ih hx)

/-- The files of the crashes are those that were there before and those of each crash. -/
theorem mem_crashes {n : Nat} {x : ReportFile Nat} (hx : x ∈ (crashes copied s r t n).files) :
    x ∈ s.files ∨ ∃ i < n, x.report = r + i ∧ x.mtime = t + i := by
  induction n with
  | zero => exact Or.inl hx
  | succ n ih =>
      rcases List.mem_append.mp hx with hx | hx
      · obtain hold | ⟨i, hi, hspec⟩ := ih hx
        · exact Or.inl hold
        · exact Or.inr ⟨i, Nat.lt_succ_of_lt hi, hspec⟩
      · rw [reportFiles_crash] at hx
        refine Or.inr ⟨n, Nat.lt_succ_self n, ?_⟩
        rcases List.mem_cons.mp hx with rfl | hx
        · exact ⟨rfl, rfl⟩
        · rw [List.mem_singleton.mp hx]
          exact ⟨rfl, rfl⟩

theorem length_dumpMtimes_crashes (s : Disk Nat) (r : Nat) (t : Int) (n : Nat) :
    (dumpMtimes (crashes true s r t n).files).length = (dumpMtimes s.files).length + n := by
  induction n with
  | zero => rfl
  | succ n ih =>
      rw [crashes, dumpMtimes_append, List.length_append, ih, reportFiles_crash]
      rfl

/-- The threshold of the first clean-up is the time of the only dump that was there before. -/
theorem threshold_crashes {thr : Int} (hone : (dumpMtimes s.files).length ≤ 1)
    (h : threshold (crashes true s r t 15).files = some thr) :
    ∃ d ∈ dumpMtimes s.files, thr ≤ d := by
  have hlen := length_dumpMtimes_crashes s r t 15
  rw [threshold] at h
  split at h
  · rename_i hmany
    have hmany : 16 ≤ (dumpMtimes (crashes true s r t 15).files).length := hmany
    obtain ⟨d, hd⟩ := List.exists_mem_of_length_pos
      (show 0 < (dumpMtimes s.files).length by omega)
    refine ⟨d, hd, greatestFirst_last_le h (show _ ≤ 16 by omega) d ?_⟩
    obtain ⟨g, hg, rfl⟩ := List.mem_map.mp hd
    obtain ⟨hg, hkind⟩ := List.mem_filter.mp hg
    exact List.mem_map.mpr
      ⟨g, List.mem_filter.mpr ⟨subset_crashes true s r t 15 hg, hkind⟩, rfl⟩
  · cases h

/-- A clean-up with an older threshold leaves the files of all the crashes. -/
theorem crashes_stay {n : Nat} (hreport : ∀ g ∈ s.files, g.report < r)
    (hthreshold : ∀ thr, threshold (crashes true s r t n).files = some thr → thr < t) {i : Nat}
    (hi : i < n) :
    ∃ g ∈ (makeRoomForNewReport (some (crashes true s r t n).files) (fun _ => none)
      (crashes true s r t n).files).2, g.report = r + i := by
  obtain ⟨g, hg, hgr, hgt⟩ := crashes_report true s r t hi
  refine ⟨g, mem_makeRoomForNewReport hg fun thr h x hx hname hold => ?_, hgr⟩
  have hlt := hthreshold thr h
  have hsame := congrArg Prod.fst hname
  dsimp only [ReportFile.name] at hsame
  rcases mem_crashes hx with hx | ⟨j, -, hj, hjt⟩
  · have hlow := hreport x hx
    omega
  · omega

/-- One report with a file that is newer than its dump, or without a dump, is enough: crashes
of which every one gets its dump follow, and files of seventeen reports are there. -/
theorem stray_file_overflows {f : ReportFile Nat} (hf : f ∈ s.files)
    (hnames : (s.files.map (·.name)).Nodup) (hone : (dumpMtimes s.files).length ≤ 1)
    (hnewer : ∀ d ∈ dumpMtimes s.files, d < f.mtime) (hr : ∀ x ∈ s.names, x < r)
    (hreport : ∀ g ∈ s.files, g.report < r) (hnow : s.now ≤ t) (ht : f.mtime ≤ t) :
    ∃ (s' : Disk Nat) (e : Invocation Nat),
      ((collector Nat).resumed s).Reachable
        (fun s e => e.Valid s ∧ ∃ r t, e = crash true s.files r t) s' ∧
      (e.Valid s' ∧ ∃ r t, e = crash true s'.files r t) ∧
      (makeRoomForNewReport e.listing e.removal s'.files).1 = true ∧
      kMaxNumReports < (reports (e.main s'.files).2).length := by
  have hdumps := length_dumpMtimes_crashes s r t
  have hrun := crashes_reachable hr hnow 15 fun i hi => by
    rw [hdumps]
    exact (show _ < 16 by omega)
  have hfresh : r + 15 ∉ (crashes true s r t 15).names :=
    fun hin => Nat.lt_irrefl _ (crashes_names hr 15 _ hin)
  have hvalid := valid_crash true hfresh (crashes_now hnow 15)
  have hbefore := subset_crashes true s r t 15
  have hthreshold : ∀ thr, threshold (crashes true s r t 15).files = some thr →
      thr < f.mtime := by
    intro thr h
    obtain ⟨d, hd, hle⟩ := threshold_crashes hone h
    exact Int.lt_of_le_of_lt hle (hnewer d hd)
  have hstray := mem_makeRoomForNewReport (hbefore hf) fun thr h x hx hname hold => by
    have hlt := hthreshold thr h
    rcases mem_crashes hx with hx | ⟨i, -, hi, -⟩
    · rw [List.inj_on_of_nodup_map hnames hx hf hname] at hold
      omega
    · have hlow := hreport f hf
      have hsame := congrArg Prod.fst hname
      dsimp only [ReportFile.name] at hsame
      omega
  have hcrash := fun i (hi : i < 15) => crashes_stay hreport
    (fun thr h => Int.lt_of_lt_of_le (hthreshold thr h) ht) hi
  refine ⟨_, crash true (crashes true s r t 15).files (r + 15) (t + 15), hrun,
    ⟨hvalid, _, _, rfl⟩, makeRoomForNewReport_ok _, ?_⟩
  rw [main_crash]
  have hnodup : (f.report :: (List.range 16).map (r + ·)).Nodup := by
    refine List.nodup_cons.mpr ⟨fun hin => ?_, ?_⟩
    · obtain ⟨i, -, hi⟩ := List.mem_map.mp hin
      have hlow := hreport f hf
      omega
    · exact List.nodup_range.map fun a b h => Nat.add_left_cancel h
  refine Nat.lt_of_lt_of_le (show kMaxNumReports < _ from Nat.lt_succ_self 16)
    (length_le_reports hnodup fun x hx => ?_)
  rcases List.mem_cons.mp hx with rfl | hx
  · exact ⟨f, List.mem_append_left _ hstray, rfl⟩
  · obtain ⟨i, hi, rfl⟩ := List.mem_map.mp hx
    rcases Nat.lt_succ_iff_lt_or_eq.mp (List.mem_range.mp hi) with hlt | rfl
    · obtain ⟨g, hg, hgr⟩ := hcrash i hlt
      exact ⟨g, List.mem_append_left _ hg, hgr⟩
    · rw [reportFiles_crash]
      exact ⟨_, List.mem_append_right _ List.mem_cons_self, rfl⟩

end Crashes

end DragonDevice.Crash
