import Bhtune.Runtime.ConfigPatch

/-!
# Saves of the configuration that are cut off

* `StagedWrite` — where a write is between its temporary file and the rename;
* `writeConfigFileAtomically_goes` — what a write passes through and how it ends;
* `saveConfigStore_goes` — a save that is cut off anywhere, by the process or by the power, leaves
  the old text or the new one, and an error leaves the old one.
-/

namespace Bhtune

open CrashFiles Effect

/-! ### Names -/

section Names

variable {path : ConfigPath} {a b : String} {suffixes : Suffixes} {k : ℕ}

theorem sibling_ne (h : a ≠ "") : path.sibling a ≠ path := by
  intro heq
  have hname : some (path.fileName.getD "bhtune.toml" ++ a) = path.fileName :=
    congrArg ConfigPath.fileName heq
  cases hfile : path.fileName with
  | none =>
    rw [hfile] at hname
    cases hname
  | some name =>
    rw [hfile] at hname
    have hlen := congrArg String.length (Option.some.inj hname)
    rw [Option.getD_some, String.length_append] at hlen
    have hzero : a.length = 0 := by omega
    exact h (String.length_eq_zero_iff.mp hzero)

theorem sibling_inj (h : path.sibling a = path.sibling b) : a = b := by
  have hname : some (path.fileName.getD "bhtune.toml" ++ a) =
      some (path.fileName.getD "bhtune.toml" ++ b) := congrArg ConfigPath.fileName h
  have hlist := congrArg String.toList (Option.some.inj hname)
  rw [String.toList_append, String.toList_append] at hlist
  exact String.toList_injective (List.append_cancel_left hlist)

/-- The temporary file of an attempt. -/
def tempPathFor (path : ConfigPath) (suffixes : Suffixes) (k : ℕ) : ConfigPath :=
  siblingWithSuffix path "tmp" (suffixes.temp k)

theorem tempPathFor_ne : tempPathFor path suffixes k ≠ path := by
  apply sibling_ne
  intro h
  have hlist := congrArg String.toList h
  rw [String.toList_append] at hlist
  cases hlist

theorem backupPathFor_ne : backupPathFor path suffixes.backup ≠ path := by
  apply sibling_ne
  intro h
  have hlist := congrArg String.toList h
  rw [String.toList_append] at hlist
  cases hlist

theorem tempPathFor_ne_backupPathFor :
    tempPathFor path suffixes k ≠ backupPathFor path suffixes.backup := by
  intro h
  have hlist := congrArg String.toList (sibling_inj h)
  simp only [String.toList_append] at hlist
  injection hlist with _ hlist
  injection hlist with hchar _
  cases hchar

end Names

/-! ### The write, from disk to disk -/

section Write

variable {d₀ d : Disk ConfigPath UInt8} {path temp : ConfigPath} {suffixes : Suffixes}
variable {new bytes : List UInt8} {file : ℕ}

/-- A name that is none of the save's own, and leads to no file of the backup's name. -/
structure Foreign (d₀ : Disk ConfigPath UInt8) (path : ConfigPath) (suffixes : Suffixes)
    (temp q : ConfigPath) : Prop where
  temp : q ≠ temp
  backup : q ≠ backupPathFor path suffixes.backup
  off : d₀.Off q (d₀.handle (backupPathFor path suffixes.backup))

/-- Where a write is while its temporary file stands. -/
structure StagedWrite (d₀ : Disk ConfigPath UInt8) (path : ConfigPath) (suffixes : Suffixes)
    (temp : ConfigPath) (file : ℕ) (d : Disk ConfigPath UInt8) : Prop where
  same : ∀ q, Foreign d₀ path suffixes temp q → Same q d₀ d
  now : d.now temp = some file
  fresh : d₀.next ≤ file
  vacant : d₀.now temp = none
  name : ∃ k, temp = tempPathFor path suffixes k

/-- What holds of every disk a write passes through. -/
structure Passing (d₀ : Disk ConfigPath UInt8) (path : ConfigPath) (suffixes : Suffixes)
    (new : List UInt8) (d : Disk ConfigPath UInt8) : Prop where
  whole : Whole d₀ path new d
  kept : ∀ q, q ≠ path → (∀ k, Foreign d₀ path suffixes (tempPathFor path suffixes k) q) →
    Intact q d₀ d

namespace StagedWrite

theorem ne_path (h : StagedWrite d₀ path suffixes temp file d) : temp ≠ path := by
  obtain ⟨k, hk⟩ := h.name
  rw [hk]
  exact tempPathFor_ne

theorem ne_backup (h : StagedWrite d₀ path suffixes temp file d) :
    temp ≠ backupPathFor path suffixes.backup := by
  obtain ⟨k, hk⟩ := h.name
  rw [hk]
  exact tempPathFor_ne_backupPathFor

theorem lt_next (h : StagedWrite d₀ path suffixes temp file d) : file < d.next :=
  d.used temp file (h.now ▸ List.mem_cons_self)

/-- No name that is left alone leads to the temporary file. -/
theorem off (h : StagedWrite d₀ path suffixes temp file d) {q : ConfigPath}
    (hq : Foreign d₀ path suffixes temp q) : d.Off q file := by
  apply (h.same q hq).off
  intro hmem
  exact Nat.not_lt_of_le h.fresh (d₀.used q file hmem)

/-- The configuration is one of those names, where it shares no file with the backup's name. -/
theorem foreign (h : StagedWrite d₀ path suffixes temp file d)
    (hlink : d₀.Off path (d₀.handle (backupPathFor path suffixes.backup))) :
    Foreign d₀ path suffixes temp path :=
  ⟨h.ne_path.symm, backupPathFor_ne.symm, hlink⟩

theorem passing (h : StagedWrite d₀ path suffixes temp file d)
    (hlink : d₀.Off path (d₀.handle (backupPathFor path suffixes.backup))) :
    Passing d₀ path suffixes new d := by
  refine ⟨.of_same (h.same path (h.foreign hlink)), ?_⟩
  intro q _ hq
  obtain ⟨k, hk⟩ := h.name
  exact .of_same (h.same q (hk ▸ hq k))

theorem fill (h : StagedWrite d₀ path suffixes temp file d) (bytes : List UInt8) :
    StagedWrite d₀ path suffixes temp file (d.fill file bytes) :=
  ⟨fun q hq => (h.same q hq).trans (.fill (h.off hq)), h.now, h.fresh, h.vacant, h.name⟩

theorem flush (h : StagedWrite d₀ path suffixes temp file d) :
    StagedWrite d₀ path suffixes temp file (d.flush file) :=
  ⟨fun q hq => (h.same q hq).trans (.flush (h.off hq)), h.now, h.fresh, h.vacant, h.name⟩

end StagedWrite

theorem Passing.start : Passing d₀ path suffixes new d₀ :=
  ⟨.of_same (.refl path d₀), fun q _ _ => .of_same (.refl q d₀)⟩

/-- A sync of a directory takes nothing away. -/
theorem Passing.settle (h : Passing d₀ path suffixes new d) (inside : ConfigPath → Bool) :
    Passing d₀ path suffixes new (d.settle inside) :=
  ⟨h.whole.settle inside, fun q hqp hq => (h.kept q hqp hq).settle inside⟩

/-- How a failed write leaves the disk. -/
def Abandoned (d₀ : Disk ConfigPath UInt8) (path : ConfigPath) (suffixes : Suffixes)
    (d : Disk ConfigPath UInt8) : Prop :=
  Same path d₀ d ∧ ∀ q, (∀ k, Foreign d₀ path suffixes (tempPathFor path suffixes k) q) →
    Same q d₀ d

theorem StagedWrite.abandoned (h : StagedWrite d₀ path suffixes temp file d)
    (hlink : d₀.Off path (d₀.handle (backupPathFor path suffixes.backup))) :
    Abandoned d₀ path suffixes d := by
  refine ⟨h.same path (h.foreign hlink), ?_⟩
  intro q hq
  obtain ⟨k, hk⟩ := h.name
  exact h.same q (hk ▸ hq k)

variable (hlink : d₀.Off path (d₀.handle (backupPathFor path suffixes.backup)))
include hlink

/-- A step that gives up removes the temporary file at most. -/
theorem abandon_goes {α : Type} {Q : α → Disk ConfigPath UInt8 → Prop} {action : String}
    {source : IoError} (h : StagedWrite d₀ path suffixes temp file d) :
    Goes (Passing d₀ path suffixes new) d (abandon path temp action source : Filed α) Q
      (fun _ d' => Abandoned d₀ path suffixes d') := by
  have hremove : ∀ q, Foreign d₀ path suffixes temp q → Same q d₀ (d.remove temp) := fun q hq =>
    (h.same q hq).trans (.remove hq.temp)
  have hpath := h.foreign hlink
  have habandoned : Abandoned d₀ path suffixes (d.remove temp) := by
    refine ⟨hremove path hpath, fun q hq => ?_⟩
    obtain ⟨k, hk⟩ := h.name
    exact hremove q (hk ▸ hq k)
  refine goes_seq (M := fun _ d' => Abandoned d₀ path suffixes d') (goes_removeFile ?_ ?_ ?_ ?_) ?_
  · intro _ _
    exact ⟨.of_same habandoned.1, fun q _ hq => .of_same (habandoned.2 q hq)⟩
  · exact fun _ => h.abandoned hlink
  · exact fun _ => h.abandoned hlink
  · exact fun _ _ => habandoned
  · intro _ d' hd'
    exact goes_throw hd'

theorem createTempFileWith_goes (attempts : ℕ) : ∀ k,
    Goes (Passing d₀ path suffixes new) d₀
      (createTempFileWith path (tempPathFor path suffixes) attempts k)
      (fun r d' => StagedWrite d₀ path suffixes r.1 r.2 d' ∧ d'.data r.2 = [] ∧
        d'.synced r.2 = false ∧ d'.now (backupPathFor path suffixes.backup) =
          d₀.now (backupPathFor path suffixes.backup))
      (fun _ d' => Abandoned d₀ path suffixes d') := by
  have hkept : Abandoned d₀ path suffixes d₀ := ⟨.refl path d₀, fun q _ => .refl q d₀⟩
  induction attempts with
  | zero =>
    intro k
    exact goes_throw hkept
  | succ attempts ih =>
    intro k
    have hstaged : d₀.now (tempPathFor path suffixes k) = none →
        StagedWrite d₀ path suffixes (tempPathFor path suffixes k) d₀.next
          (d₀.create (tempPathFor path suffixes k)) := fun hvacant =>
      ⟨fun q hq => .create hq.temp, now_create, Nat.le_refl _, hvacant, k, rfl⟩
    refine goes_seq (M := fun r d' => (r = .error .alreadyExists ∧ d' = d₀) ∨
      ((∃ e, r = .error e ∧ e ≠ .alreadyExists) ∧ d' = d₀) ∨
      (∃ file, r = .ok file ∧ StagedWrite d₀ path suffixes (tempPathFor path suffixes k) file d' ∧
        d'.data file = [] ∧ d'.synced file = false ∧
        d'.now (backupPathFor path suffixes.backup) =
          d₀.now (backupPathFor path suffixes.backup)))
      (goes_createNew ?_ ?_ ?_ ?_) ?_
    · exact fun hvacant => (hstaged hvacant).passing hlink
    · intro r
      exact .inr (.inl ⟨⟨_, rfl, nofun⟩, rfl⟩)
    · exact fun _ _ => .inl ⟨rfl, rfl⟩
    · intro hvacant
      exact .inr (.inr ⟨_, rfl, hstaged hvacant, Function.update_self _ _ _,
        Function.update_self _ _ _, Function.update_of_ne tempPathFor_ne_backupPathFor.symm _ _⟩)
    · rintro r d' (⟨rfl, rfl⟩ | ⟨⟨e, rfl, he⟩, rfl⟩ | ⟨file, rfl, hfile⟩)
      · exact ih (k + 1)
      · cases e with
        | alreadyExists => exact absurd rfl he
        | notFound => exact goes_throw hkept
        | other reason => exact goes_throw hkept
      · exact goes_pure hfile

/-- Written and synced, or given up. -/
theorem writeAndFlushTempFile_goes (h : StagedWrite d₀ path suffixes temp file d)
    (hdata : d.data file = []) (hsynced : d.synced file = false) :
    Goes (Passing d₀ path suffixes new) d (writeAndFlushTempFile path temp bytes file)
      (fun _ d' => StagedWrite d₀ path suffixes temp file d' ∧ d'.data file = bytes ∧
        d'.synced file = true ∧ d'.now = d.now)
      (fun _ d' => Abandoned d₀ path suffixes d') := by
  refine goes_seq (M := fun r d' => (r = .ok () ∧ d' = d.fill file bytes) ∨
    (∃ e, r = .error e ∧ StagedWrite d₀ path suffixes temp file d'))
    (goes_writeAll hsynced ?_ ?_ ?_) ?_
  · intro l _
    exact (h.fill _).passing hlink
  · intro r l _
    exact .inr ⟨_, rfl, h.fill _⟩
  · rw [hdata, List.nil_append]
    exact .inl ⟨rfl, rfl⟩
  · rintro r d' (⟨rfl, rfl⟩ | ⟨e, rfl, hstaged⟩)
    · have hfilled := h.fill bytes
      refine goes_seq (M := fun r d' => (r = .ok () ∧ d' = (d.fill file bytes).flush file) ∨
        (∃ e, r = .error e ∧ StagedWrite d₀ path suffixes temp file d'))
        (goes_syncAll (hfilled.flush.passing hlink) ?_ (.inl ⟨rfl, rfl⟩)) ?_
      · intro r
        exact .inr ⟨_, rfl, hfilled⟩
      · rintro r d' (⟨rfl, rfl⟩ | ⟨e, rfl, hstaged⟩)
        · exact goes_pure ⟨hfilled.flush, data_fill bytes, Function.update_self _ _ _, rfl⟩
        · exact abandon_goes hlink hstaged
    · exact abandon_goes hlink hstaged

omit hlink in
/-- What the backup's name leads to: the file it led to before, or a new one. -/
theorem StagedWrite.off_backup (h : StagedWrite d₀ path suffixes temp file d) {q : ConfigPath}
    (hnow : d.now (backupPathFor path suffixes.backup) =
      d₀.now (backupPathFor path suffixes.backup))
    (hq : Foreign d₀ path suffixes temp q) :
    d.Off q (d.handle (backupPathFor path suffixes.backup)) := by
  have hoff := hq.off
  unfold Disk.handle at hoff ⊢
  rw [hnow]
  cases hbackup : d₀.now (backupPathFor path suffixes.backup) with
  | none => exact d.off_next q
  | some j =>
    rw [hbackup] at hoff
    exact (h.same q hq).off hoff

omit hlink in
/-- The temporary file is not the one the backup goes to. -/
theorem StagedWrite.ne_handle (h : StagedWrite d₀ path suffixes temp file d)
    (hnow : d.now (backupPathFor path suffixes.backup) =
      d₀.now (backupPathFor path suffixes.backup)) :
    file ≠ d.handle (backupPathFor path suffixes.backup) := by
  unfold Disk.handle
  rw [hnow]
  cases hbackup : d₀.now (backupPathFor path suffixes.backup) with
  | none => exact Nat.ne_of_lt h.lt_next
  | some j =>
    have hj := d₀.used (backupPathFor path suffixes.backup) j (hbackup ▸ List.mem_cons_self)
    exact Nat.ne_of_gt (Nat.lt_of_lt_of_le hj h.fresh)

/-- The backup holds what the file held, or is not there because the file was taken for missing. -/
def BackedUp (d₀ : Disk ConfigPath UInt8) (path : ConfigPath) (suffixes : Suffixes)
    (d : Disk ConfigPath UInt8) (backup : Option ConfigPath) : Prop :=
  ∀ b, backup = some b → b = backupPathFor path suffixes.backup ∧ (d₀.now path).isSome ∧
    d.read b = d₀.read path

theorem backUp_goes (h : StagedWrite d₀ path suffixes temp file d)
    (hnow : d.now (backupPathFor path suffixes.backup) =
      d₀.now (backupPathFor path suffixes.backup))
    (hdata : d.data file = bytes) (hsynced : d.synced file = true) :
    Goes (Passing d₀ path suffixes new) d (backUp path temp suffixes)
      (fun r d' => StagedWrite d₀ path suffixes temp file d' ∧ d'.data file = bytes ∧
        d'.synced file = true ∧ BackedUp d₀ path suffixes d' r)
      (fun _ d' => Abandoned d₀ path suffixes d') := by
  have hoff : ∀ q, Foreign d₀ path suffixes temp q →
      d.Off q (d.handle (backupPathFor path suffixes.backup)) := fun q hq =>
    h.off_backup hnow hq
  have hne := h.ne_handle hnow
  -- the disk with part of the backup written
  have hcopied : ∀ l, StagedWrite d₀ path suffixes temp file
      ((d.opened (backupPathFor path suffixes.backup)).fill
        (d.handle (backupPathFor path suffixes.backup)) l) := by
    intro l
    refine ⟨fun q hq => ?_, ?_, h.fresh, h.vacant, h.name⟩
    · have hopened := same_opened hq.backup (hoff q hq)
      exact ((h.same q hq).trans hopened).trans (.fill (hopened.off (hoff q hq)))
    · exact (now_opened_of_ne h.ne_backup).trans h.now
  refine goes_seq (M := fun r d' => d' = d ∧ (r = .ok true → (d.now path).isSome))
    (goes_tryExists (fun _ => ⟨rfl, nofun⟩) (fun _ => ⟨rfl, nofun⟩) ?_) ?_
  · intro i hi
    exact ⟨rfl, fun _ => hi ▸ rfl⟩
  · rintro r d' ⟨hd', hthere⟩
    rw [hd']
    have hpath := h.foreign hlink
    have hnone : Goes (Passing d₀ path suffixes new) d (pure none : Filed (Option ConfigPath))
        (fun r d' => StagedWrite d₀ path suffixes temp file d' ∧ d'.data file = bytes ∧
          d'.synced file = true ∧ BackedUp d₀ path suffixes d' r)
        (fun _ d' => Abandoned d₀ path suffixes d') :=
      goes_pure ⟨h, hdata, hsynced, nofun⟩
    cases r with
    | error e => exact hnone
    | ok there =>
      cases there with
      | false => exact hnone
      | true =>
        refine goes_seq (M := fun r d' => StagedWrite d₀ path suffixes temp file d' ∧
          (r = .ok () → d'.data file = bytes ∧ d'.synced file = true ∧
            d'.read (backupPathFor path suffixes.backup) = d₀.read path))
          (goes_copyFile (same_opened hpath.backup (hoff path hpath)) ?_ ?_ ?_ ?_ ?_) ?_
        · exact fun _ l _ _ => (hcopied l).passing hlink
        · exact fun _ => ⟨h, nofun⟩
        · exact fun _ _ l _ _ => ⟨hcopied l, nofun⟩
        · exact fun _ => ⟨h, nofun⟩
        · intro held hheld
          refine ⟨hcopied held, fun _ => ⟨?_, ?_, ?_⟩⟩
          · exact ((Function.update_of_ne hne _ _).trans
              (data_opened_of_ne hne)).trans hdata
          · exact ((Function.update_of_ne hne _ _).trans
              (synced_opened_of_ne hne)).trans hsynced
          · rw [read_fill now_opened, ← hheld]
            exact (h.same path hpath).read
        · rintro r d' ⟨hstaged, hr⟩
          cases r with
          | error e => exact abandon_goes hlink hstaged
          | ok u =>
            obtain ⟨hdata', hsynced', hread⟩ := hr rfl
            refine goes_pure ⟨hstaged, hdata', hsynced', ?_⟩
            rintro b hb
            cases hb
            refine ⟨rfl, ?_, hread⟩
            rw [← (h.same path hpath).now]
            exact hthere rfl

variable (new) in
/-- **What a write passes through, and how it ends.** -/
theorem writeConfigFileAtomically_goes (unix createParentDir : Bool) :
    Goes (Passing d₀ path suffixes new) d₀
      (writeConfigFileAtomically unix suffixes path new createParentDir)
      (fun backup d' => d'.read path = some new ∧ BackedUp d₀ path suffixes d' backup ∧
        ∀ q, q ≠ path → q ≠ backupPathFor path suffixes.backup →
          d₀.Off q (d₀.handle (backupPathFor path suffixes.backup)) → d'.read q = d₀.read q)
      (fun _ d' => Abandoned d₀ path suffixes d') := by
  have hkept : Abandoned d₀ path suffixes d₀ := ⟨.refl path d₀, fun q _ => .refl q d₀⟩
  unfold writeConfigFileAtomically
  refine goes_seq (M := fun _ d' => d' = d₀) ?_ ?_
  · cases createParentDir with
    | false => exact goes_pure rfl
    | true =>
      show Goes _ d₀ (ensureParentDir path) _ _
      unfold ensureParentDir
      split
      · exact goes_pure rfl
      · apply goes_fault
        rintro (_ | f)
        · exact goes_pure rfl
        · exact goes_throw hkept
  intro _ d' hd'
  rw [hd']
  refine goes_seq (createTempFileWith_goes hlink 16 0) ?_
  rintro ⟨temp, file⟩ d₁ ⟨hstaged₁, hdata₁, hsynced₁, hnow₁⟩
  refine goes_seq (writeAndFlushTempFile_goes hlink hstaged₁ hdata₁ hsynced₁) ?_
  rintro _ d₂ ⟨hstaged₂, hdata₂, hsynced₂, hnow₂⟩
  have hbackup₂ := (congrFun hnow₂ (backupPathFor path suffixes.backup)).trans hnow₁
  refine goes_seq (backUp_goes hlink hstaged₂ hbackup₂ hdata₂ hsynced₂) ?_
  rintro backup d₃ ⟨hstaged₃, hdata₃, hsynced₃, hbacked⟩
  have hpath := hstaged₃.foreign hlink
  have hwhole : Whole d₀ path new (d₃.move temp path) :=
    .move (hstaged₃.same path hpath) hstaged₃.now hdata₃ hsynced₃
  have hmoved : ∀ q, q ≠ path → Foreign d₀ path suffixes temp q →
      Same q d₀ (d₃.move temp path) := fun q hqp hq =>
    (hstaged₃.same q hq).trans (.move hq.temp hqp)
  have hpassing : Passing d₀ path suffixes new (d₃.move temp path) := by
    refine ⟨hwhole, fun q hqp hq => ?_⟩
    obtain ⟨k, hk⟩ := hstaged₃.name
    exact .of_same (hmoved q hqp (hk ▸ hq k))
  have hend : (d₃.move temp path).read path = some new ∧
      BackedUp d₀ path suffixes (d₃.move temp path) backup ∧
      ∀ q, q ≠ path → q ≠ backupPathFor path suffixes.backup →
        d₀.Off q (d₀.handle (backupPathFor path suffixes.backup)) →
        (d₃.move temp path).read q = d₀.read q := by
    refine ⟨?_, fun b hb => ?_, fun q hqp hqb hoff => ?_⟩
    · rw [read_move]
      show (d₃.now temp).map d₃.data = some new
      rw [hstaged₃.now, Option.map_some, hdata₃]
    · obtain ⟨hname, hthere, hread⟩ := hbacked b hb
      refine ⟨hname, hthere, ?_⟩
      rw [hname] at hread ⊢
      rw [← hread]
      exact read_move_of_ne hstaged₃.ne_backup.symm backupPathFor_ne
    · by_cases hqt : q = temp
      · rw [hqt]
        unfold Disk.read
        rw [now_move_source hstaged₃.ne_path, hstaged₃.vacant]
        rfl
      · exact (hmoved q hqp ⟨hqt, hqb, hoff⟩).read
  refine goes_seq (M := fun r d' => (r = .ok () ∧ d' = d₃.move temp path) ∨
    (∃ e, r = .error e ∧ d' = d₃)) (goes_rename (fun _ _ => hpassing) ?_ ?_ ?_) ?_
  · exact fun r => .inr ⟨_, rfl, rfl⟩
  · exact fun _ => .inr ⟨_, rfl, rfl⟩
  · exact fun _ _ => .inl ⟨rfl, rfl⟩
  rintro r d₄ (⟨rfl, rfl⟩ | ⟨e, rfl, rfl⟩)
  · refine goes_seq (M := fun _ d' => d' = d₃.move temp path ∨
      ∃ inside, d' = (d₃.move temp path).settle inside) ?_ ?_
    · unfold syncParentDir
      split
      · exact goes_syncDirectory (hpassing.settle _) (.inl rfl) (.inr ⟨_, rfl⟩)
      · exact goes_pure (.inl rfl)
    · rintro _ d₅ (rfl | ⟨inside, rfl⟩)
      · exact goes_pure hend
      · exact goes_pure hend
  · exact abandon_goes hlink hstaged₃

end Write

/-! ### The save -/

section Save

variable {δ ρ : Type} {format : ConfigFormat δ ρ} {unix : Bool} {suffixes : Suffixes}
variable {state : LoadedConfigStore ρ} {expectedRevision : String} {update : ConfigPolicyUpdate}
variable {d₀ : Disk ConfigPath UInt8} {path : ConfigPath}

/-- The bytes of a text that the update gives, and that reads as a configuration. -/
def SavedBytes (format : ConfigFormat δ ρ) (state : LoadedConfigStore ρ)
    (update : ConfigPolicyUpdate) (bytes : List UInt8) : Prop :=
  ∃ raw config, patchConfigPolicy format state.originalRaw update = .ok (raw, config) ∧
    bytes = utf8Bytes raw

/-- Where a save may be cut off: the configuration reads as before, or as the update has it. -/
structure CutOff (Saved : List UInt8 → Prop) (d₀ : Disk ConfigPath UInt8) (path : ConfigPath)
    (d : Disk ConfigPath UInt8) : Prop where
  killed : d.read path = d₀.read path ∨ ∃ bytes, Saved bytes ∧ d.read path = some bytes
  powerless : ∀ c, d.AfterLoss path c → d₀.AfterLoss path c ∨ ∃ bytes, Saved bytes ∧ c = some bytes

theorem CutOff.start {Saved : List UInt8 → Prop} : CutOff Saved d₀ path d₀ :=
  ⟨.inl rfl, fun _ => .inl⟩

theorem Passing.cutOff {Saved : List UInt8 → Prop} {new : List UInt8}
    {d : Disk ConfigPath UInt8} (h : Passing d₀ path suffixes new d) (hnew : Saved new) :
    CutOff Saved d₀ path d :=
  ⟨h.whole.killed.imp id fun h => ⟨new, hnew, h⟩,
    fun c hc => (h.whole.powerless c hc).imp id fun h => ⟨new, hnew, h⟩⟩

/-- What is known of a save that succeeds. -/
structure Saved (format : ConfigFormat δ ρ) (suffixes : Suffixes) (state : LoadedConfigStore ρ)
    (expectedRevision : String) (update : ConfigPolicyUpdate) (path : ConfigPath)
    (d₀ d : Disk ConfigPath UInt8) (result : ConfigSaveResult ρ) : Prop where
  revision : state.revision = expectedRevision
  base : d₀.read path = state.originalRaw.map utf8Bytes
  patched : ∃ raw config, patchConfigPolicy format state.originalRaw update = .ok (raw, config) ∧
    result.state = savedStore state path update (raw, config) ∧
    d.read path = some (utf8Bytes raw)
  backedUp : BackedUp d₀ path suffixes d result.backupPath
  others : ∀ q, q ≠ path → q ≠ backupPathFor path suffixes.backup →
    d₀.Off q (d₀.handle (backupPathFor path suffixes.backup)) → d.read q = d₀.read q

/-- A save that is cut off.  The name of the backup leads to no file of the configuration's
own.  Then, whatever fails and wherever the process is killed or the power goes, the configuration
reads as before or as the update has it; a save that fails leaves it as before. -/
theorem saveConfigStore_goes (hpath : state.path = some path)
    (hlink : d₀.Off path (d₀.handle (backupPathFor path suffixes.backup))) :
    Goes (CutOff (SavedBytes format state update) d₀ path) d₀
      (saveConfigStore format unix suffixes state expectedRevision update)
      (fun result d => Saved format suffixes state expectedRevision update path d₀ d result)
      (fun _ d => Intact path d₀ d) := by
  have hkept : Intact path d₀ d₀ := .of_same (.refl path d₀)
  unfold saveConfigStore
  split
  · exact goes_throw hkept
  rename_i hrevision
  rw [hpath]
  refine goes_seq (M := fun r d => d = d₀ ∧ r = d₀.read path) (goes_adaptExcept ?_) ?_
  · refine goes_seq (M := fun r d => d = d₀ ∧ ((∃ e, r = .error e ∧ e ≠ .notFound) ∨
      (r = .error .notFound ∧ d₀.read path = none) ∨ ∃ bytes, r = .ok bytes ∧
        d₀.read path = some bytes)) (goes_readFile ?_ ?_ ?_) ?_
    · exact fun _ => ⟨rfl, .inl ⟨_, rfl, nofun⟩⟩
    · exact fun h => ⟨rfl, .inr (.inl ⟨rfl, h⟩)⟩
    · exact fun bytes h => ⟨rfl, .inr (.inr ⟨bytes, rfl, h⟩)⟩
    · rintro r d ⟨hd, ⟨e, rfl, he⟩ | ⟨rfl, hnone⟩ | ⟨bytes, rfl, hbytes⟩⟩
      · rw [hd]
        cases e with
        | notFound => exact absurd rfl he
        | alreadyExists => exact goes_throw hkept
        | other reason => exact goes_throw hkept
      · exact goes_pure ⟨hd, hnone.symm⟩
      · exact goes_pure ⟨hd, hbytes.symm⟩
  rintro current d ⟨hd, rfl⟩
  rw [hd]
  split
  · exact goes_throw hkept
  rename_i hbase
  split
  · exact goes_throw hkept
  split
  · exact goes_throw hkept
  · exact goes_throw hkept
  · rename_i patched hpatched
    obtain ⟨raw, config⟩ := patched
    have hsaved : SavedBytes format state update (utf8Bytes raw) := ⟨raw, config, hpatched, rfl⟩
    have hwrite := writeConfigFileAtomically_goes (utf8Bytes raw) hlink unix
      state.originalRaw.isNone
    refine goes_seq (goes_adaptExcept (goes_mono hwrite (fun d hd => hd.cutOff hsaved)
      (fun _ _ h => h) fun _ d h => .of_same h.1)) ?_
    rintro backup d' ⟨hread, hbacked, hothers⟩
    exact goes_pure ⟨not_not.mp hrevision, (not_not.mp hbase).symm,
      ⟨raw, config, hpatched, rfl, hread⟩, hbacked, hothers⟩

end Save

def etcPath : ConfigPath := ⟨"/etc/bhtune", some "bhtune.toml"⟩

def etcSuffixes : Suffixes := ⟨fun _ => "7-1700000000-000000001", "7-1700000000-000000002"⟩

/-! ### Saves that nothing disturbs -/

section Undisturbed

variable {δ ρ : Type} {format : ConfigFormat δ ρ} {unix : Bool} {suffixes : Suffixes}
variable {state : LoadedConfigStore ρ} {update : ConfigPolicyUpdate}
variable {d₀ d : Disk ConfigPath UInt8} {path : ConfigPath} {new : List UInt8}

/-- The backup, without faults. -/
theorem backUp_runs {temp : ConfigPath} {file : ℕ}
    (h : StagedWrite d₀ path suffixes temp file d)
    (hlink : d₀.Off path (d₀.handle (backupPathFor path suffixes.backup)))
    (hnow : d.now (backupPathFor path suffixes.backup) =
      d₀.now (backupPathFor path suffixes.backup)) :
    Runs d (backUp path temp suffixes) (fun r d' =>
      r = (d₀.read path).map (fun _ => backupPathFor path suffixes.backup) ∧
        d'.now temp = some file ∧ (d.synced file = true → d'.synced file = true)) := by
  have hpath := h.foreign hlink
  have hsame := h.same path hpath
  refine runs_seq runs_tryExists ?_
  rintro _ d' ⟨hd', rfl⟩
  rw [hd', hsame.now]
  cases hfile : d₀.now path with
  | none =>
    refine runs_pure ⟨?_, h.now, id⟩
    unfold Disk.read
    rw [hfile]
    rfl
  | some i =>
    have hread : d.read path = some (d.data i) := by
      unfold Disk.read
      rw [hsame.now, hfile]
      rfl
    have hoff := h.off_backup hnow hpath
    refine runs_seq (runs_copyFile hread (same_opened hpath.backup hoff)) ?_
    rintro _ _ ⟨rfl, rfl⟩
    refine runs_pure ⟨?_, (now_opened_of_ne h.ne_backup).trans h.now, fun hsynced => ?_⟩
    · unfold Disk.read
      rw [hfile]
      rfl
    · have hne : file ≠ d.handle (backupPathFor path suffixes.backup) := h.ne_handle hnow
      exact ((Function.update_of_ne hne _ _).trans (synced_opened_of_ne hne)).trans hsynced

theorem write_undisturbed {createParentDir : Bool}
    (hlink : d₀.Off path (d₀.handle (backupPathFor path suffixes.backup)))
    (hvacant : d₀.now (tempPathFor path suffixes 0) = none) :
    Runs d₀ (writeConfigFileAtomically unix suffixes path new createParentDir) (fun backup d =>
      backup = (d₀.read path).map (fun _ => backupPathFor path suffixes.backup) ∧
        (unix = true → path.directory ≠ "" → d.Durable path)) := by
  unfold writeConfigFileAtomically
  refine runs_seq (M := fun _ d => d = d₀) ?_ ?_
  · cases createParentDir with
    | false => exact runs_pure rfl
    | true =>
      show Runs d₀ (ensureParentDir path) _
      unfold ensureParentDir
      split
      · exact runs_pure rfl
      · exact runs_fault (runs_pure rfl)
  intro _ d' hd'
  rw [hd']
  have hstaged : StagedWrite d₀ path suffixes (tempPathFor path suffixes 0) d₀.next
      (d₀.create (tempPathFor path suffixes 0)) :=
    ⟨fun q hq => .create hq.temp, now_create, Nat.le_refl _, hvacant, 0, rfl⟩
  refine runs_seq (M := fun r d => r = (tempPathFor path suffixes 0, d₀.next) ∧
    d = d₀.create (tempPathFor path suffixes 0)) ?_ ?_
  · refine runs_seq (runs_createNew hvacant) ?_
    rintro _ _ ⟨rfl, rfl⟩
    exact runs_pure ⟨rfl, rfl⟩
  rintro _ d₁ ⟨rfl, hd₁⟩
  have hstaged₁ := (hstaged.fill new).flush
  refine runs_seq (M := fun _ d => d =
    ((d₀.create (tempPathFor path suffixes 0)).fill d₀.next new).flush d₀.next) ?_ ?_
  · have hsynced : d₁.synced d₀.next = false := by
      rw [hd₁]
      exact Function.update_self _ _ _
    have hdata : d₁.data d₀.next = [] := by
      rw [hd₁]
      exact Function.update_self _ _ _
    refine runs_seq (runs_writeAll hsynced) ?_
    rintro _ _ ⟨rfl, rfl⟩
    refine runs_seq runs_syncAll ?_
    rintro _ _ ⟨rfl, rfl⟩
    apply runs_pure
    rw [hdata, List.nil_append, hd₁]
  rintro _ d₂ rfl
  have hnow₂ : (((d₀.create (tempPathFor path suffixes 0)).fill d₀.next new).flush d₀.next).now
      (backupPathFor path suffixes.backup) = d₀.now (backupPathFor path suffixes.backup) :=
    Function.update_of_ne tempPathFor_ne_backupPathFor.symm _ _
  refine runs_seq (backUp_runs hstaged₁ hlink hnow₂) ?_
  rintro backup d₃ ⟨hbackup, hnow₃, hsynced₃⟩
  refine runs_seq (runs_rename hnow₃) ?_
  rintro _ _ ⟨rfl, rfl⟩
  refine runs_seq (M := fun _ d => unix = true → path.directory ≠ "" → d.Durable path) ?_ ?_
  · unfold syncParentDir
    split
    · refine runs_mono runs_syncDirectory ?_
      rintro _ _ rfl _ _
      exact durable_settle (decide_eq_true rfl) (now_move hnow₃)
        (hsynced₃ (Function.update_self _ _ _))
    · rename_i hnot
      exact runs_pure fun hunix hdirectory => absurd ⟨hunix, hdirectory⟩ hnot
  · intro _ d₄ hdurable
    exact runs_pure ⟨hbackup, hdurable⟩

variable (unix) in
/-- **A save that nothing disturbs** succeeds: the revision is the current one, the file is as it
was loaded and the update gives a configuration.  On Unix the new text is then there to stay. -/
theorem save_undisturbed {raw : String} {config : ConfigFile ρ} (hpath : state.path = some path)
    (hbase : d₀.read path = state.originalRaw.map utf8Bytes)
    (hmissing : state.originalRaw = none → state.missingIsAllowed = true)
    (hpatched : patchConfigPolicy format state.originalRaw update = .ok (raw, config))
    (hlink : d₀.Off path (d₀.handle (backupPathFor path suffixes.backup)))
    (hvacant : d₀.now (tempPathFor path suffixes 0) = none) :
    Runs d₀ (saveConfigStore format unix suffixes state state.revision update) (fun result d =>
      result.state = savedStore state path update (raw, config) ∧
      result.backupPath = (d₀.read path).map (fun _ => backupPathFor path suffixes.backup) ∧
      (unix = true → path.directory ≠ "" → d.Durable path)) := by
  unfold saveConfigStore
  rw [if_neg (not_not.mpr rfl), hpath]
  refine runs_seq (M := fun r d => d = d₀ ∧ r = d₀.read path) (runs_adaptExcept ?_) ?_
  · refine runs_seq runs_readFile ?_
    rintro _ d ⟨hd, rfl⟩
    rw [hd]
    cases d₀.read path <;> exact runs_pure ⟨rfl, rfl⟩
  rintro _ d ⟨hd, rfl⟩
  rw [hd, if_neg (not_not.mpr hbase.symm)]
  rw [if_neg (fun h => Bool.noConfusion ((hmissing h.1).symm.trans h.2)), hpatched]
  refine runs_seq (runs_adaptExcept (write_undisturbed hlink hvacant)) ?_
  rintro backup d' ⟨hbackup, hdurable⟩
  exact runs_pure ⟨rfl, hbackup, hdurable⟩

end Undisturbed

end Bhtune
