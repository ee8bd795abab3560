import Bhtune.Library.Effect
import Mathlib.Data.List.Infix
import Mathlib.Logic.Function.Basic

/-!
# Programs on files that may be cut off at any point

A disk leads from names to files and from files to what they hold.  A program changes it by
operations any of which may fail, in the middle where it has one; and between any two changes the
process may be killed or the power may go.  A killed process leaves the disk as it is.  A loss of
power does worse: a name may lead to whatever it led to at any time since its directory was last
synced, and a file that was not synced after its last change may hold anything.

The state of a program is the disk, the disks it has passed through, and the faults that are still
to come; what holds of every disk passed through holds wherever the program is cut off.

* `Disk`, `AfterLoss` — the disk and what a loss of power may leave behind a name;
* `Same` — a name is left alone, for a killed process and for a loss of power alike;
* `afterLoss_move` — what a rename over a name does to it;
* `Intact`, `Whole`, `Whole.move` — names that read as before, or as before or as they shall, and
  how they stay so;
* `Goes` — the disks a program passes through and what it ends with, with one rule for each
  operation;
* `Runs` — what it ends with when nothing fails, with rules of the same names.
-/

namespace CrashFiles

open Effect

variable {π β ε α γ : Type}

/-- Names, files, and the entries and contents that a loss of power may bring back. -/
structure Disk (π β : Type) where
  now : π → Option ℕ
  before : π → List (Option ℕ)
  data : ℕ → List β
  synced : ℕ → Bool
  next : ℕ
  used : ∀ p i, some i ∈ now p :: before p → i < next

namespace Disk

/-- What the file of that name holds, where there is one. -/
def read (d : Disk π β) (p : π) : Option (List β) := (d.now p).map d.data

/-- The file `i` is none that `p` leads to or could lead to after a loss of power. -/
def Off (d : Disk π β) (p : π) (i : ℕ) : Prop := some i ∉ d.now p :: d.before p

/-- After a loss of power `p` may read as `c`. -/
def AfterLoss (d : Disk π β) (p : π) (c : Option (List β)) : Prop :=
  ∃ e ∈ d.now p :: d.before p, match e with
    | none => c = none
    | some i => ∃ bytes, c = some bytes ∧ (d.synced i = true → bytes = d.data i)

/-- Nothing a power loss could change: `p` is durable as it is. -/
def Durable (d : Disk π β) (p : π) : Prop := ∀ c, d.AfterLoss p c → c = d.read p

theorem off_next (d : Disk π β) (p : π) : d.Off p d.next :=
  fun h => Nat.lt_irrefl _ (d.used p d.next h)

/-- The disk itself is one of those a loss of power may leave. -/
theorem afterLoss_read (d : Disk π β) (p : π) : d.AfterLoss p (d.read p) := by
  refine ⟨d.now p, List.mem_cons_self, ?_⟩
  unfold read
  cases d.now p with
  | none => rfl
  | some i => exact ⟨d.data i, rfl, fun _ => rfl⟩

/-! ### The changes -/

section Changes

variable [DecidableEq π]

theorem used_create (d : Disk π β) (p : π) (q : π) (i : ℕ)
    (h : some i ∈ Function.update d.now p (some d.next) q ::
      Function.update d.before p (d.now p :: d.before p) q) : i < d.next + 1 := by
  by_cases hq : q = p
  · subst hq
    rw [Function.update_self, Function.update_self, List.mem_cons] at h
    rcases h with h | h
    · cases h
      exact Nat.lt_succ_self _
    · exact Nat.lt_succ_of_lt (d.used q i h)
  · rw [Function.update_of_ne hq, Function.update_of_ne hq] at h
    exact Nat.lt_succ_of_lt (d.used q i h)

theorem used_remove (d : Disk π β) (p : π) (q : π) (i : ℕ)
    (h : some i ∈ Function.update d.now p none q ::
      Function.update d.before p (d.now p :: d.before p) q) : i < d.next := by
  by_cases hq : q = p
  · subst hq
    rw [Function.update_self, Function.update_self, List.mem_cons] at h
    rcases h with h | h
    · cases h
    · exact d.used q i h
  · rw [Function.update_of_ne hq, Function.update_of_ne hq] at h
    exact d.used q i h

theorem used_move (d : Disk π β) (a b : π) (q : π) (i : ℕ)
    (h : some i ∈ Function.update (Function.update d.now a none) b (d.now a) q ::
      Function.update (Function.update d.before a (d.now a :: d.before a)) b
        (d.now b :: d.before b) q) : i < d.next := by
  by_cases hq : q = b
  · subst hq
    rw [Function.update_self, Function.update_self, List.mem_cons] at h
    rcases h with h | h
    · exact d.used a i (h ▸ List.mem_cons_self)
    · exact d.used q i h
  · rw [Function.update_of_ne hq, Function.update_of_ne hq] at h
    exact d.used_remove a q i h

omit [DecidableEq π] in
theorem used_settle (d : Disk π β) (inside : π → Bool) (q : π) (i : ℕ)
    (h : some i ∈ d.now q :: (if inside q then [] else d.before q)) : i < d.next := by
  apply d.used q i
  rcases List.mem_cons.mp h with h | h
  · exact h ▸ List.mem_cons_self
  · split at h
    · cases h
    · exact List.mem_cons_of_mem _ h

/-- A new file of that name. -/
def create (d : Disk π β) (p : π) : Disk π β where
  now := Function.update d.now p (some d.next)
  before := Function.update d.before p (d.now p :: d.before p)
  data := Function.update d.data d.next []
  synced := Function.update d.synced d.next false
  next := d.next + 1
  used := d.used_create p

/-- The file `i` holds `bytes`, which are not synced. -/
def fill (d : Disk π β) (i : ℕ) (bytes : List β) : Disk π β :=
  { d with data := Function.update d.data i bytes, synced := Function.update d.synced i false }

/-- What the file `i` holds is synced. -/
def flush (d : Disk π β) (i : ℕ) : Disk π β := { d with synced := Function.update d.synced i true }

/-- The name `b` leads where `a` led, and `a` nowhere. -/
def move (d : Disk π β) (a b : π) : Disk π β where
  now := Function.update (Function.update d.now a none) b (d.now a)
  before := Function.update (Function.update d.before a (d.now a :: d.before a)) b
    (d.now b :: d.before b)
  data := d.data
  synced := d.synced
  next := d.next
  used := d.used_move a b

/-- The name leads nowhere. -/
def remove (d : Disk π β) (p : π) : Disk π β where
  now := Function.update d.now p none
  before := Function.update d.before p (d.now p :: d.before p)
  data := d.data
  synced := d.synced
  next := d.next
  used := d.used_remove p

/-- The names inside a directory are synced. -/
def settle (d : Disk π β) (inside : π → Bool) : Disk π β where
  now := d.now
  before := fun p => if inside p then [] else d.before p
  data := d.data
  synced := d.synced
  next := d.next
  used := d.used_settle inside

/-- The file that opening the name for writing gives. -/
def handle (d : Disk π β) (p : π) : ℕ := (d.now p).getD d.next

/-- The name leads to an empty file. -/
def opened (d : Disk π β) (p : π) : Disk π β :=
  match d.now p with
  | some i => d.fill i []
  | none => d.create p

/-- A file written, synced and entered durably. -/
def put (d : Disk π β) (p : π) (bytes : List β) : Disk π β :=
  (((d.create p).fill d.next bytes).flush d.next).settle (fun q => decide (q = p))

end Changes

theorem used_empty (p : π) (i : ℕ) (h : some i ∈ (fun _ : π => (none : Option ℕ)) p ::
    (fun _ : π => ([] : List (Option ℕ))) p) : i < 0 := by
  rcases List.mem_cons.mp h with h | h <;> cases h

/-- A disk without files. -/
def empty : Disk π β where
  now := fun _ => none
  before := fun _ => []
  data := fun _ => []
  synced := fun _ => true
  next := 0
  used := used_empty

end Disk

open Disk

/-! ### Names that are left alone -/

/-- The name `p` leads to the same on both disks, whatever happens to the power. -/
structure Same (p : π) (d d' : Disk π β) : Prop where
  now : d'.now p = d.now p
  before : d'.before p = d.before p
  data : ∀ i, some i ∈ d.now p :: d.before p → d'.data i = d.data i
  synced : ∀ i, some i ∈ d.now p :: d.before p → d'.synced i = d.synced i

namespace Same

variable {p q a b : π} {d d' d'' : Disk π β} {i : ℕ} {bytes : List β}

theorem refl (p : π) (d : Disk π β) : Same p d d := ⟨rfl, rfl, fun _ _ => rfl, fun _ _ => rfl⟩

theorem entries (h : Same p d d') : d'.now p :: d'.before p = d.now p :: d.before p := by
  rw [h.now, h.before]

theorem trans (h : Same p d d') (h' : Same p d' d'') : Same p d d'' := by
  refine ⟨h'.now.trans h.now, h'.before.trans h.before, ?_, ?_⟩
  · intro i hi
    exact (h'.data i (h.entries ▸ hi)).trans (h.data i hi)
  · intro i hi
    exact (h'.synced i (h.entries ▸ hi)).trans (h.synced i hi)

theorem off (h : Same p d d') (hi : d.Off p i) : d'.Off p i := by
  unfold Off
  rw [h.entries]
  exact hi

theorem read (h : Same p d d') : d'.read p = d.read p := by
  unfold Disk.read
  rw [h.now]
  cases hp : d.now p with
  | none => rfl
  | some i => exact congrArg some (h.data i (hp ▸ List.mem_cons_self))

theorem afterLoss (h : Same p d d') {c : Option (List β)} (hc : d'.AfterLoss p c) :
    d.AfterLoss p c := by
  obtain ⟨e, he, hc⟩ := hc
  rw [h.entries] at he
  refine ⟨e, he, ?_⟩
  cases e with
  | none => exact hc
  | some i =>
    obtain ⟨bytes, hbytes, hsync⟩ := hc
    refine ⟨bytes, hbytes, fun hi => ?_⟩
    rw [← h.data i he]
    exact hsync ((h.synced i he).trans hi)

/-- A change of a file the name does not lead to. -/
theorem fill (h : d.Off p i) : Same p d (d.fill i bytes) := by
  have hne : ∀ j, some j ∈ d.now p :: d.before p → j ≠ i := by
    rintro j hj rfl
    exact h hj
  exact ⟨rfl, rfl, fun j hj => Function.update_of_ne (hne j hj) _ _,
    fun j hj => Function.update_of_ne (hne j hj) _ _⟩

theorem flush (h : d.Off p i) : Same p d (d.flush i) := by
  refine ⟨rfl, rfl, fun _ _ => rfl, fun j hj => Function.update_of_ne ?_ _ _⟩
  rintro rfl
  exact h hj

variable [DecidableEq π]

/-- A new file under another name. -/
theorem create (hpq : p ≠ q) : Same p d (d.create q) := by
  have hne : ∀ j, some j ∈ d.now p :: d.before p → j ≠ d.next := by
    rintro j hj rfl
    exact d.off_next p hj
  exact ⟨Function.update_of_ne hpq _ _, Function.update_of_ne hpq _ _,
    fun j hj => Function.update_of_ne (hne j hj) _ _,
    fun j hj => Function.update_of_ne (hne j hj) _ _⟩

theorem remove (hpq : p ≠ q) : Same p d (d.remove q) :=
  ⟨Function.update_of_ne hpq _ _, Function.update_of_ne hpq _ _, fun _ _ => rfl, fun _ _ => rfl⟩

theorem move (hpa : p ≠ a) (hpb : p ≠ b) : Same p d (d.move a b) := by
  refine ⟨?_, ?_, fun _ _ => rfl, fun _ _ => rfl⟩
  · exact (Function.update_of_ne hpb _ _).trans (Function.update_of_ne hpa _ _)
  · exact (Function.update_of_ne hpb _ _).trans (Function.update_of_ne hpa _ _)

end Same

/-! ### What a change does to the name it is about -/

section About

variable {p a b : π} {d d' : Disk π β} {i t : ℕ} {bytes : List β} {c : Option (List β)}

theorem read_fill (h : d.now p = some i) : (d.fill i bytes).read p = some bytes := by
  show (d.now p).map (Function.update d.data i bytes) = _
  rw [h, Option.map_some, Function.update_self]

/-- A sync of the directory only takes away what a loss of power could have brought back. -/
theorem afterLoss_settle [DecidableEq π] {inside : π → Bool}
    (h : (d.settle inside).AfterLoss p c) : d.AfterLoss p c := by
  obtain ⟨e, he, hc⟩ := h
  refine ⟨e, ?_, hc⟩
  rcases List.mem_cons.mp he with he | he
  · exact he ▸ List.mem_cons_self
  · unfold settle at he
    dsimp only at he
    split at he
    · cases he
    · exact List.mem_cons_of_mem _ he

/-- A synced file whose name is synced is there to stay. -/
theorem durable_settle [DecidableEq π] {inside : π → Bool} (hp : inside p = true)
    (h : d.now p = some i) (hi : d.synced i = true) : (d.settle inside).Durable p := by
  rintro c ⟨e, he, hc⟩
  have hbefore : (d.settle inside).before p = [] := if_pos hp
  rw [hbefore, List.mem_singleton] at he
  have hnow : (d.settle inside).now p = some i := h
  rw [hnow] at he
  subst he
  obtain ⟨bytes, rfl, hbytes⟩ := hc
  show some bytes = ((d.settle inside).now p).map d.data
  rw [hnow, hbytes hi]
  rfl

variable [DecidableEq π]

theorem now_create : (d.create p).now p = some d.next := Function.update_self _ _ _

omit [DecidableEq π] in
/-- A name that is not in use would lead to a file of its own. -/
theorem off_handle {q : π} (h : d.now q = none) : d.Off p (d.handle q) := by
  unfold handle
  rw [h]
  exact d.off_next p

theorem now_opened : (d.opened p).now p = some (d.handle p) := by
  unfold opened handle
  cases hp : d.now p with
  | none => exact now_create
  | some i => exact hp

theorem now_opened_of_ne {q : π} (h : q ≠ p) : (d.opened p).now q = d.now q := by
  unfold opened
  cases d.now p with
  | none => exact Function.update_of_ne h _ _
  | some i => rfl

theorem data_opened_of_ne (h : i ≠ d.handle p) : (d.opened p).data i = d.data i := by
  unfold opened
  unfold handle at h
  cases hp : d.now p with
  | none =>
    rw [hp] at h
    exact Function.update_of_ne h _ _
  | some j =>
    rw [hp] at h
    exact Function.update_of_ne h _ _

theorem synced_opened_of_ne (h : i ≠ d.handle p) : (d.opened p).synced i = d.synced i := by
  unfold opened
  unfold handle at h
  cases hp : d.now p with
  | none =>
    rw [hp] at h
    exact Function.update_of_ne h _ _
  | some j =>
    rw [hp] at h
    exact Function.update_of_ne h _ _

theorem data_opened : (d.opened p).data (d.handle p) = [] := by
  unfold opened handle
  cases hp : d.now p with
  | none => exact Function.update_self _ _ _
  | some i => exact Function.update_self _ _ _

theorem synced_opened : (d.opened p).synced (d.handle p) = false := by
  unfold opened handle
  cases hp : d.now p with
  | none => exact Function.update_self _ _ _
  | some i => exact Function.update_self _ _ _

/-- Opening a name for writing leaves another one alone unless both lead to one file. -/
theorem same_opened {q : π} (hqp : q ≠ p) (hoff : d.Off q (d.handle p)) :
    Same q d (d.opened p) := by
  unfold opened
  unfold handle at hoff
  cases hp : d.now p with
  | none => exact Same.create hqp
  | some i =>
    rw [hp] at hoff
    exact Same.fill hoff

theorem read_move : (d.move a b).read b = d.read a := by
  show (Function.update (Function.update d.now a none) b (d.now a) b).map d.data = _
  rw [Function.update_self]
  rfl

theorem read_move_of_ne {q : π} (ha : q ≠ a) (hb : q ≠ b) : (d.move a b).read q = d.read q :=
  congrArg (Option.map d.data)
    ((Function.update_of_ne hb _ _).trans (Function.update_of_ne ha _ _))

theorem now_move_source (h : a ≠ b) : (d.move a b).now a = none :=
  (Function.update_of_ne h _ _).trans (Function.update_self _ _ _)

theorem now_move (h : d.now a = some t) : (d.move a b).now b = some t :=
  (Function.update_self _ _ _).trans h

/-- **A rename over a name**: after a loss of power it leads to the file that was moved there,
whole if that was synced, or to what it could have led to before. -/
theorem afterLoss_move (h : d.now a = some t) (hc : (d.move a b).AfterLoss b c) :
    (∃ bytes, c = some bytes ∧ (d.synced t = true → bytes = d.data t)) ∨ d.AfterLoss b c := by
  obtain ⟨e, he, hc⟩ := hc
  have hnow : (d.move a b).now b = some t := now_move h
  have hbefore : (d.move a b).before b = d.now b :: d.before b := Function.update_self _ _ _
  rw [hnow, hbefore, List.mem_cons] at he
  rcases he with rfl | he
  · exact .inl hc
  · exact .inr ⟨e, he, hc⟩

end About

/-! ### Files that are replaced -/

/-- The name reads as at first, wherever a program is cut off. -/
structure Intact (p : π) (d₀ d : Disk π β) : Prop where
  killed : d.read p = d₀.read p
  powerless : ∀ c, d.AfterLoss p c → d₀.AfterLoss p c

/-- Wherever a program is cut off, the name reads as it did at first or as `new`, whole. -/
structure Whole (d₀ : Disk π β) (p : π) (new : List β) (d : Disk π β) : Prop where
  killed : d.read p = d₀.read p ∨ d.read p = some new
  powerless : ∀ c, d.AfterLoss p c → d₀.AfterLoss p c ∨ c = some new

section Replaced

variable {d₀ d : Disk π β} {p t : π} {i : ℕ} {new : List β}

theorem Intact.of_same (h : Same p d₀ d) : Intact p d₀ d := ⟨h.read, fun _ => h.afterLoss⟩

theorem Whole.of_same (h : Same p d₀ d) : Whole d₀ p new d :=
  ⟨.inl h.read, fun _ hc => .inl (h.afterLoss hc)⟩

variable [DecidableEq π]

/-- **Sync first, rename then**: a file that was synced before it was moved there is whole. -/
theorem Whole.move (h : Same p d₀ d) (ht : d.now t = some i) (hdata : d.data i = new)
    (hsynced : d.synced i = true) : Whole d₀ p new (d.move t p) := by
  constructor
  · right
    rw [read_move]
    show (d.now t).map d.data = some new
    rw [ht, Option.map_some, hdata]
  · intro c hc
    rcases afterLoss_move ht hc with ⟨bytes, hbytes, hsync⟩ | hc
    · right
      rw [hbytes, hsync hsynced, hdata]
    · exact .inl (h.afterLoss hc)

theorem Intact.settle (h : Intact p d₀ d) (inside : π → Bool) : Intact p d₀ (d.settle inside) :=
  ⟨h.killed, fun c hc => h.powerless c (afterLoss_settle hc)⟩

theorem Whole.settle (h : Whole d₀ p new d) (inside : π → Bool) :
    Whole d₀ p new (d.settle inside) :=
  ⟨h.killed, fun c hc => h.powerless c (afterLoss_settle hc)⟩

end Replaced

/-! ### Programs -/

/-- Why an operation failed. -/
inductive IoError where
  | notFound
  | alreadyExists
  | other (reason : String)
  deriving DecidableEq

/-- A fault to come: its reason, and how far the operation gets. -/
structure IoFault where
  reason : String
  after : ℕ

/-- The state of a program on files. -/
structure Host (π β : Type) where
  disk : Disk π β
  passed : List (Disk π β)
  faults : List (Option IoFault)

/-- A program is about to start on that disk. -/
def Host.start (d : Disk π β) (faults : List (Option IoFault)) : Host π β := ⟨d, [d], faults⟩

section Operations

/-- The disk changes. -/
def visit (change : Disk π β → Disk π β) : EStateM ε (Host π β) Unit :=
  modify fun h => { h with disk := change h.disk, passed := change h.disk :: h.passed }

/-- Whether the next operation fails. -/
def fault : EStateM ε (Host π β) (Option IoFault) := fun h =>
  .ok (h.faults.head?.getD none) { h with faults := h.faults.tail }

def readFile (p : π) : EStateM ε (Host π β) (Except IoError (List β)) := do
  match ← fault with
  | some f => return .error (.other f.reason)
  | none =>
    match (← get).disk.read p with
    | none => return .error .notFound
    | some bytes => return .ok bytes

/-- Whether the name leads to a file; an error is one of the answers. -/
def tryExists (p : π) : EStateM ε (Host π β) (Except IoError Bool) := do
  match ← fault with
  | some f => return .error (.other f.reason)
  | none => return .ok ((← get).disk.now p).isSome

/-- Puts bytes at the end of a file, one after the other. -/
def appendBytes (i : ℕ) : List β → EStateM ε (Host π β) Unit
  | [] => pure ()
  | b :: rest => do
    visit fun d => d.fill i (d.data i ++ [b])
    appendBytes i rest

/-- Writes to an open file; a fault leaves part of it written. -/
def writeAll (i : ℕ) (bytes : List β) : EStateM ε (Host π β) (Except IoError Unit) := do
  match ← fault with
  | some f =>
    appendBytes i (bytes.take f.after)
    return .error (.other f.reason)
  | none =>
    appendBytes i bytes
    return .ok ()

/-- Syncs an open file. -/
def syncAll (i : ℕ) : EStateM ε (Host π β) (Except IoError Unit) := do
  match ← fault with
  | some f => return .error (.other f.reason)
  | none =>
    visit fun d => d.flush i
    return .ok ()

/-- Syncs a directory, if that works. -/
def syncDirectory [DecidableEq π] (inside : π → Bool) : EStateM ε (Host π β) Unit := do
  match ← fault with
  | some _ => return ()
  | none => visit fun d => d.settle inside

variable [DecidableEq π]

/-- Creates a file of a name that is not taken, and opens it. -/
def createNew (p : π) : EStateM ε (Host π β) (Except IoError ℕ) := do
  match ← fault with
  | some f => return .error (.other f.reason)
  | none =>
    let d := (← get).disk
    match d.now p with
    | some _ => return .error .alreadyExists
    | none =>
      visit fun d => d.create p
      return .ok d.next

/-- Opens a file for writing, empty: the file of that name, or a new one. -/
def openTruncated (p : π) : EStateM ε (Host π β) ℕ := do
  let d := (← get).disk
  visit fun d => d.opened p
  return d.handle p

/-- Copies what `source` holds to the name `destination`; a fault leaves that name alone, or with
part of the contents. -/
def copyFile (source destination : π) : EStateM ε (Host π β) (Except IoError Unit) := do
  match ← fault with
  | some f =>
    match (← get).disk.read source, f.after with
    | some _, k + 1 =>
      let i ← openTruncated destination
      appendBytes i ((((← get).disk.read source).getD []).take k)
      return .error (.other f.reason)
    | _, _ => return .error (.other f.reason)
  | none =>
    match (← get).disk.read source with
    | none => return .error .notFound
    | some _ =>
      let i ← openTruncated destination
      appendBytes i (((← get).disk.read source).getD [])
      return .ok ()

def rename (a b : π) : EStateM ε (Host π β) (Except IoError Unit) := do
  match ← fault with
  | some f => return .error (.other f.reason)
  | none =>
    match (← get).disk.now a with
    | none => return .error .notFound
    | some _ =>
      visit fun d => d.move a b
      return .ok ()

def removeFile (p : π) : EStateM ε (Host π β) (Except IoError Unit) := do
  match ← fault with
  | some f => return .error (.other f.reason)
  | none =>
    match (← get).disk.now p with
    | none => return .error .notFound
    | some _ =>
      visit fun d => d.remove p
      return .ok ()

end Operations

/-! ### What a program passes through -/

/-- Every disk passed through between the two states is in `P`. -/
def Through (P : Disk π β → Prop) (h h' : Host π β) : Prop :=
  ∃ new, h'.passed = new ++ h.passed ∧ ∀ d ∈ new, P d

/-- From the disk `d`, `x` only passes through disks in `P`, and ends in `Q` with a value or in
`E` with a failure, whatever goes wrong on the way. -/
def Goes (P : Disk π β → Prop) (d : Disk π β) (x : EStateM ε (Host π β) α)
    (Q : α → Disk π β → Prop) (E : ε → Disk π β → Prop) : Prop :=
  ∀ h : Host π β, h.disk = d →
    wp x (fun a h' => Through P h h' ∧ Q a h'.disk) (fun e h' => Through P h h' ∧ E e h'.disk) h

section Rules

variable {P : Disk π β → Prop} {d : Disk π β} {Q : α → Disk π β → Prop}
variable {E : ε → Disk π β → Prop}

omit Q E in
theorem Through.refl (h : Host π β) : Through P h h :=
  ⟨[], rfl, fun _ hd => absurd hd List.not_mem_nil⟩

omit Q E in
theorem Through.trans {h h' h'' : Host π β} (h₁ : Through P h h') (h₂ : Through P h' h'') :
    Through P h h'' := by
  obtain ⟨new, hnew, hP⟩ := h₁
  obtain ⟨new', hnew', hP'⟩ := h₂
  refine ⟨new' ++ new, by rw [hnew', hnew, List.append_assoc], ?_⟩
  intro d hd
  rcases List.mem_append.mp hd with hd | hd
  · exact hP' d hd
  · exact hP d hd

theorem goes_pure {a : α} (h : Q a d) : Goes P d (pure a : EStateM ε (Host π β) α) Q E := by
  rintro s rfl
  exact ⟨.refl s, h⟩

theorem goes_throw {e : ε} (h : E e d) : Goes P d (throw e : EStateM ε (Host π β) α) Q E := by
  rintro s rfl
  exact ⟨.refl s, h⟩

theorem goes_seq {x : EStateM ε (Host π β) γ} {f : γ → EStateM ε (Host π β) α}
    {M : γ → Disk π β → Prop} (hx : Goes P d x M E) (hf : ∀ c d', M c d' → Goes P d' (f c) Q E) :
    Goes P d (x >>= f) Q E := by
  intro s hs
  apply wp_seq (hx s hs)
  rintro c s' ⟨hthrough, hc⟩
  exact wp_mono (hf c s'.disk hc s' rfl) (fun _ _ h => ⟨hthrough.trans h.1, h.2⟩)
    fun _ _ h => ⟨hthrough.trans h.1, h.2⟩

theorem goes_mono {x : EStateM ε (Host π β) α} {P' : Disk π β → Prop}
    {Q' : α → Disk π β → Prop} {E' : ε → Disk π β → Prop} (h : Goes P d x Q E)
    (hP : ∀ d, P d → P' d) (hQ : ∀ a d', Q a d' → Q' a d') (hE : ∀ e d', E e d' → E' e d') :
    Goes P' d x Q' E' := by
  intro s hs
  have hthrough : ∀ s', Through P s s' → Through P' s s' := by
    rintro s' ⟨new, hnew, hall⟩
    exact ⟨new, hnew, fun d hd => hP d (hall d hd)⟩
  exact wp_mono (h s hs) (fun a s' h => ⟨hthrough s' h.1, hQ a s'.disk h.2⟩)
    fun e s' h => ⟨hthrough s' h.1, hE e s'.disk h.2⟩

/-- A program whose failures are named differently. -/
theorem goes_adaptExcept {ε' : Type} {f : ε → ε'} {x : EStateM ε (Host π β) α}
    {E : ε' → Disk π β → Prop} (h : Goes P d x Q fun e => E (f e)) :
    Goes P d (EStateM.adaptExcept f x) Q E := by
  intro s hs
  have hx := h s hs
  unfold wp EStateM.adaptExcept at *
  cases hrun : x s with
  | ok a s' =>
    rw [hrun] at hx
    exact hx
  | error e s' =>
    rw [hrun] at hx
    exact hx

/-- The disk itself can be looked at. -/
theorem goes_get {f : Host π β → EStateM ε (Host π β) α}
    (hf : ∀ s : Host π β, s.disk = d → Goes P d (f s) Q E) : Goes P d (get >>= f) Q E := by
  intro s hs
  exact wp_bind.mpr (hf s hs s hs)

theorem goes_visit {Q : Unit → Disk π β → Prop} {change : Disk π β → Disk π β}
    (hP : P (change d)) (hQ : Q () (change d)) :
    Goes P d (visit change : EStateM ε (Host π β) Unit) Q E := by
  rintro s rfl
  refine ⟨⟨[change s.disk], rfl, fun d' hd' => ?_⟩, hQ⟩
  rw [List.mem_singleton.mp hd']
  exact hP

/-- Whatever comes after the question whether there is a fault. -/
theorem goes_fault {f : Option IoFault → EStateM ε (Host π β) α}
    (hf : ∀ r, Goes P d (f r) Q E) : Goes P d (fault >>= f) Q E := by
  rintro s rfl
  exact wp_bind.mpr (hf _ { s with faults := s.faults.tail } rfl)

theorem goes_readFile {Q : Except IoError (List β) → Disk π β → Prop} {p : π}
    (hfault : ∀ r, Q (.error (.other r)) d) (hnone : d.read p = none → Q (.error .notFound) d)
    (hsome : ∀ bytes, d.read p = some bytes → Q (.ok bytes) d) :
    Goes P d (readFile p : EStateM ε (Host π β) _) Q E := by
  apply goes_fault
  rintro (_ | f)
  · apply goes_get
    rintro s rfl
    cases hp : s.disk.read p with
    | none => exact goes_pure (hnone hp)
    | some bytes => exact goes_pure (hsome bytes hp)
  · exact goes_pure (hfault f.reason)

theorem goes_tryExists {Q : Except IoError Bool → Disk π β → Prop} {p : π}
    (hfault : ∀ r, Q (.error (.other r)) d) (hnone : d.now p = none → Q (.ok false) d)
    (hsome : ∀ i, d.now p = some i → Q (.ok true) d) :
    Goes P d (tryExists p : EStateM ε (Host π β) _) Q E := by
  apply goes_fault
  rintro (_ | f)
  · apply goes_get
    rintro s rfl
    apply goes_pure
    cases hp : s.disk.now p with
    | none => exact hnone hp
    | some i => exact hsome i hp
  · exact goes_pure (hfault f.reason)

omit P E in
theorem fill_data {i : ℕ} (hs : d.synced i = false) : d.fill i (d.data i) = d := by
  show ({ d with data := Function.update d.data i (d.data i), synced := _ } : Disk π β) = d
  rw [Function.update_eq_self, ← hs, Function.update_eq_self]

omit P E in
theorem fill_fill {i : ℕ} (bytes bytes' : List β) :
    (d.fill i bytes).fill i bytes' = d.fill i bytes' := by
  unfold fill
  rw [Function.update_idem, Function.update_idem]

omit P E in
theorem data_fill {i : ℕ} (bytes : List β) : (d.fill i bytes).data i = bytes :=
  Function.update_self _ _ _

omit P E in
theorem synced_fill {i : ℕ} (bytes : List β) : (d.fill i bytes).synced i = false :=
  Function.update_self _ _ _

/-- Written bytes arrive one after the other. -/
theorem goes_appendBytes {i : ℕ} {bytes : List β} (hs : d.synced i = false)
    (hP : ∀ l, l <+: bytes → P (d.fill i (d.data i ++ l))) :
    Goes P d (appendBytes i bytes : EStateM ε (Host π β) Unit)
      (fun _ d' => d' = d.fill i (d.data i ++ bytes)) E := by
  induction bytes generalizing d with
  | nil =>
    apply goes_pure
    rw [List.append_nil, fill_data hs]
  | cons b rest ih =>
    have hb : P (d.fill i (d.data i ++ [b])) := hP [b] ⟨rest, rfl⟩
    refine goes_seq (M := fun _ d' => d' = d.fill i (d.data i ++ [b])) (goes_visit hb rfl) ?_
    rintro _ _ rfl
    refine goes_mono (ih (synced_fill _) ?_) (fun _ h => h) ?_ fun _ _ h => h
    · intro l hl
      rw [data_fill, fill_fill, List.append_assoc]
      exact hP (b :: l) (List.cons_prefix_cons.mpr ⟨rfl, hl⟩)
    · intro _ d' hd'
      rw [hd', data_fill, fill_fill, List.append_assoc]
      rfl

theorem goes_writeAll {Q : Except IoError Unit → Disk π β → Prop} {i : ℕ} {bytes : List β}
    (hs : d.synced i = false) (hP : ∀ l, l <+: bytes → P (d.fill i (d.data i ++ l)))
    (hfault : ∀ r l, l <+: bytes → Q (.error (.other r)) (d.fill i (d.data i ++ l)))
    (hQ : Q (.ok ()) (d.fill i (d.data i ++ bytes))) :
    Goes P d (writeAll i bytes : EStateM ε (Host π β) _) Q E := by
  apply goes_fault
  rintro (_ | f)
  · refine goes_seq (goes_appendBytes hs hP) ?_
    rintro _ _ rfl
    exact goes_pure hQ
  · have hl : bytes.take f.after <+: bytes := List.take_prefix _ _
    refine goes_seq (goes_appendBytes hs fun l hlt => hP l (hlt.trans hl)) ?_
    rintro _ _ rfl
    exact goes_pure (hfault f.reason _ hl)

theorem goes_syncAll {Q : Except IoError Unit → Disk π β → Prop} {i : ℕ} (hP : P (d.flush i))
    (hfault : ∀ r, Q (.error (.other r)) d) (hQ : Q (.ok ()) (d.flush i)) :
    Goes P d (syncAll i : EStateM ε (Host π β) _) Q E := by
  apply goes_fault
  rintro (_ | f)
  · refine goes_seq (M := fun _ d' => d' = d.flush i) (goes_visit hP rfl) ?_
    rintro _ _ rfl
    exact goes_pure hQ
  · exact goes_pure (hfault f.reason)

variable [DecidableEq π]

theorem goes_syncDirectory {Q : Unit → Disk π β → Prop} {inside : π → Bool}
    (hP : P (d.settle inside)) (hfault : Q () d) (hQ : Q () (d.settle inside)) :
    Goes P d (syncDirectory inside : EStateM ε (Host π β) _) Q E := by
  apply goes_fault
  rintro (_ | f)
  · exact goes_visit hP hQ
  · exact goes_pure hfault

theorem goes_createNew {Q : Except IoError ℕ → Disk π β → Prop} {p : π}
    (hP : d.now p = none → P (d.create p)) (hfault : ∀ r, Q (.error (.other r)) d)
    (htaken : ∀ i, d.now p = some i → Q (.error .alreadyExists) d)
    (hQ : d.now p = none → Q (.ok d.next) (d.create p)) :
    Goes P d (createNew p : EStateM ε (Host π β) _) Q E := by
  apply goes_fault
  rintro (_ | f)
  · apply goes_get
    rintro s rfl
    dsimp only
    cases hp : s.disk.now p with
    | some i => exact goes_pure (htaken i hp)
    | none =>
      refine goes_seq (M := fun _ d' => d' = s.disk.create p) (goes_visit (hP hp) rfl) ?_
      rintro _ _ rfl
      exact goes_pure (hQ hp)
  · exact goes_pure (hfault f.reason)

/-- The copied bytes arrive one after the other in a file that was emptied first. -/
theorem goes_copyFile {Q : Except IoError Unit → Disk π β → Prop} {source destination : π}
    (hsource : Same source d (d.opened destination))
    (hP : ∀ bytes l, d.read source = some bytes → l <+: bytes →
      P ((d.opened destination).fill (d.handle destination) l))
    (hfault : ∀ r, Q (.error (.other r)) d)
    (hpart : ∀ r bytes l, d.read source = some bytes → l <+: bytes →
      Q (.error (.other r)) ((d.opened destination).fill (d.handle destination) l))
    (hnone : d.read source = none → Q (.error .notFound) d)
    (hQ : ∀ bytes, d.read source = some bytes →
      Q (.ok ()) ((d.opened destination).fill (d.handle destination) bytes)) :
    Goes P d (copyFile source destination : EStateM ε (Host π β) _) Q E := by
  -- what is written once the destination is open, all of it or the first bytes
  have hwrite : ∀ {M : Except IoError Unit} (bytes l : List β), d.read source = some bytes →
      l <+: bytes → Q M ((d.opened destination).fill (d.handle destination) l) →
      Goes P (d.opened destination)
        (do appendBytes (d.handle destination) l
            return M : EStateM ε (Host π β) (Except IoError Unit)) Q E := by
    intro M bytes l hbytes hl hM
    refine goes_seq (goes_appendBytes synced_opened fun l' hl' => ?_) ?_
    · rw [data_opened, List.nil_append]
      exact hP bytes l' hbytes (hl'.trans hl)
    · rintro _ _ rfl
      rw [data_opened, List.nil_append]
      exact goes_pure hM
  have hopen : ∀ bytes, d.read source = some bytes →
      Goes P d (openTruncated destination : EStateM ε (Host π β) ℕ)
        (fun i d' => i = d.handle destination ∧ d' = d.opened destination) E := by
    intro bytes hbytes
    apply goes_get
    rintro s rfl
    refine goes_seq (M := fun _ d' => d' = s.disk.opened destination) (goes_visit ?_ rfl) ?_
    · have := hP bytes [] hbytes List.nil_prefix
      rwa [← data_opened (d := s.disk) (p := destination), fill_data synced_opened] at this
    · rintro _ _ rfl
      exact goes_pure ⟨rfl, rfl⟩
  apply goes_fault
  rintro (_ | f)
  · apply goes_get
    intro s hs
    rw [hs]
    cases hbytes : d.read source with
    | none => exact goes_pure (hnone hbytes)
    | some bytes =>
      refine goes_seq (hopen bytes hbytes) ?_
      rintro _ _ ⟨rfl, rfl⟩
      apply goes_get
      intro s' hs'
      rw [hs', hsource.read, hbytes]
      exact hwrite bytes bytes hbytes List.prefix_rfl (hQ bytes hbytes)
  · apply goes_get
    intro s hs
    rw [hs]
    cases hbytes : d.read source with
    | none => exact goes_pure (hfault f.reason)
    | some bytes =>
      cases hafter : f.after with
      | zero => exact goes_pure (hfault f.reason)
      | succ k =>
        refine goes_seq (hopen bytes hbytes) ?_
        rintro _ _ ⟨rfl, rfl⟩
        apply goes_get
        intro s' hs'
        rw [hs', hsource.read, hbytes]
        have hl : bytes.take k <+: bytes := List.take_prefix k bytes
        exact hwrite bytes (bytes.take k) hbytes hl (hpart f.reason bytes _ hbytes hl)

theorem goes_rename {Q : Except IoError Unit → Disk π β → Prop} {a b : π}
    (hP : ∀ i, d.now a = some i → P (d.move a b)) (hfault : ∀ r, Q (.error (.other r)) d)
    (hnone : d.now a = none → Q (.error .notFound) d)
    (hQ : ∀ i, d.now a = some i → Q (.ok ()) (d.move a b)) :
    Goes P d (rename a b : EStateM ε (Host π β) _) Q E := by
  apply goes_fault
  rintro (_ | f)
  · apply goes_get
    rintro s rfl
    cases ha : s.disk.now a with
    | none => exact goes_pure (hnone ha)
    | some i =>
      refine goes_seq (M := fun _ d' => d' = s.disk.move a b) (goes_visit (hP i ha) rfl) ?_
      rintro _ _ rfl
      exact goes_pure (hQ i ha)
  · exact goes_pure (hfault f.reason)

theorem goes_removeFile {Q : Except IoError Unit → Disk π β → Prop} {p : π}
    (hP : ∀ i, d.now p = some i → P (d.remove p)) (hfault : ∀ r, Q (.error (.other r)) d)
    (hnone : d.now p = none → Q (.error .notFound) d)
    (hQ : ∀ i, d.now p = some i → Q (.ok ()) (d.remove p)) :
    Goes P d (removeFile p : EStateM ε (Host π β) _) Q E := by
  apply goes_fault
  rintro (_ | f)
  · apply goes_get
    rintro s rfl
    cases hp : s.disk.now p with
    | none => exact goes_pure (hnone hp)
    | some i =>
      refine goes_seq (M := fun _ d' => d' = s.disk.remove p) (goes_visit (hP i hp) rfl) ?_
      rintro _ _ rfl
      exact goes_pure (hQ i hp)
  · exact goes_pure (hfault f.reason)

end Rules

/-! ### Programs that nothing disturbs -/

/-- From the disk `d` and without faults, `x` returns, in `Q`. -/
def Runs (d : Disk π β) (x : EStateM ε (Host π β) α) (Q : α → Disk π β → Prop) : Prop :=
  ∀ passed, ∃ a h', x ⟨d, passed, []⟩ = .ok a h' ∧ h'.faults = [] ∧ Q a h'.disk

section Undisturbed

variable {d : Disk π β} {Q : α → Disk π β → Prop}

theorem runs_pure {a : α} (h : Q a d) : Runs d (pure a : EStateM ε (Host π β) α) Q :=
  fun passed => ⟨a, ⟨d, passed, []⟩, rfl, rfl, h⟩

theorem runs_seq {x : EStateM ε (Host π β) γ} {f : γ → EStateM ε (Host π β) α}
    {M : γ → Disk π β → Prop} (hx : Runs d x M) (hf : ∀ c d', M c d' → Runs d' (f c) Q) :
    Runs d (x >>= f) Q := by
  intro passed
  obtain ⟨c, ⟨d', passed', faults⟩, hrun, rfl, hc⟩ := hx passed
  obtain ⟨a, h', hrest, hfaults, ha⟩ := hf c d' hc passed'
  exact ⟨a, h', (bind_of_ok hrun).trans hrest, hfaults, ha⟩

theorem runs_mono {x : EStateM ε (Host π β) α} {Q' : α → Disk π β → Prop} (h : Runs d x Q)
    (hQ : ∀ a d', Q a d' → Q' a d') : Runs d x Q' := by
  intro passed
  obtain ⟨a, h', hrun, hfaults, ha⟩ := h passed
  exact ⟨a, h', hrun, hfaults, hQ a h'.disk ha⟩

theorem runs_adaptExcept {ε' : Type} {f : ε → ε'} {x : EStateM ε (Host π β) α}
    (h : Runs d x Q) : Runs d (EStateM.adaptExcept f x) Q := by
  intro passed
  obtain ⟨a, h', hrun, hfaults, ha⟩ := h passed
  refine ⟨a, h', ?_, hfaults, ha⟩
  unfold EStateM.adaptExcept
  rw [hrun]

theorem runs_visit {change : Disk π β → Disk π β} :
    Runs d (visit change : EStateM ε (Host π β) Unit) (fun _ d' => d' = change d) :=
  fun passed => ⟨(), ⟨change d, change d :: passed, []⟩, rfl, rfl, rfl⟩

/-- Whatever comes after the question whether there is a fault, where there is none. -/
theorem runs_fault {f : Option IoFault → EStateM ε (Host π β) α} (hf : Runs d (f none) Q) :
    Runs d (fault >>= f) Q := by
  intro passed
  obtain ⟨a, h', hrun, hfaults, ha⟩ := hf passed
  exact ⟨a, h', (bind_of_ok rfl).trans hrun, hfaults, ha⟩

theorem runs_get {f : Host π β → EStateM ε (Host π β) α}
    (hf : ∀ s : Host π β, s.disk = d → Runs d (f s) Q) : Runs d (get >>= f) Q := by
  intro passed
  obtain ⟨a, h', hrun, hfaults, ha⟩ := hf ⟨d, passed, []⟩ rfl passed
  exact ⟨a, h', (bind_of_ok rfl).trans hrun, hfaults, ha⟩

theorem runs_readFile {p : π} :
    Runs d (readFile p : EStateM ε (Host π β) _)
      (fun r d' => d' = d ∧ r = ((d.read p).elim (.error .notFound) .ok)) := by
  apply runs_fault
  apply runs_get
  intro s hs
  rw [hs]
  cases d.read p <;> exact runs_pure ⟨rfl, rfl⟩

theorem runs_tryExists {p : π} :
    Runs d (tryExists p : EStateM ε (Host π β) _)
      (fun r d' => d' = d ∧ r = .ok (d.now p).isSome) := by
  apply runs_fault
  apply runs_get
  intro s hs
  rw [hs]
  exact runs_pure ⟨rfl, rfl⟩

theorem runs_appendBytes {i : ℕ} {bytes : List β} (hs : d.synced i = false) :
    Runs d (appendBytes i bytes : EStateM ε (Host π β) Unit)
      (fun _ d' => d' = d.fill i (d.data i ++ bytes)) := by
  induction bytes generalizing d with
  | nil =>
    apply runs_pure
    rw [List.append_nil, fill_data hs]
  | cons b rest ih =>
    refine runs_seq runs_visit ?_
    rintro _ _ rfl
    refine runs_mono (ih (synced_fill _)) ?_
    intro _ d' hd'
    rw [hd', data_fill, fill_fill, List.append_assoc]
    rfl

theorem runs_writeAll {i : ℕ} {bytes : List β} (hs : d.synced i = false) :
    Runs d (writeAll i bytes : EStateM ε (Host π β) _)
      (fun r d' => r = .ok () ∧ d' = d.fill i (d.data i ++ bytes)) := by
  apply runs_fault
  refine runs_seq (runs_appendBytes hs) ?_
  rintro _ _ rfl
  exact runs_pure ⟨rfl, rfl⟩

theorem runs_syncAll {i : ℕ} :
    Runs d (syncAll i : EStateM ε (Host π β) _) (fun r d' => r = .ok () ∧ d' = d.flush i) := by
  apply runs_fault
  refine runs_seq runs_visit ?_
  rintro _ _ rfl
  exact runs_pure ⟨rfl, rfl⟩

variable [DecidableEq π]

theorem runs_syncDirectory {inside : π → Bool} :
    Runs d (syncDirectory inside : EStateM ε (Host π β) _)
      (fun _ d' => d' = d.settle inside) := runs_fault runs_visit

theorem runs_createNew {p : π} (h : d.now p = none) :
    Runs d (createNew p : EStateM ε (Host π β) _)
      (fun r d' => r = .ok d.next ∧ d' = d.create p) := by
  apply runs_fault
  apply runs_get
  intro s hs
  rw [hs]
  dsimp only
  rw [h]
  refine runs_seq runs_visit ?_
  rintro _ _ rfl
  exact runs_pure ⟨rfl, rfl⟩

theorem runs_copyFile {source destination : π} {bytes : List β} (h : d.read source = some bytes)
    (hsource : Same source d (d.opened destination)) :
    Runs d (copyFile source destination : EStateM ε (Host π β) _)
      (fun r d' => r = .ok () ∧
        d' = (d.opened destination).fill (d.handle destination) bytes) := by
  have hopen : Runs d (openTruncated destination : EStateM ε (Host π β) ℕ)
      (fun i d' => i = d.handle destination ∧ d' = d.opened destination) := by
    apply runs_get
    intro s hs
    rw [hs]
    refine runs_seq runs_visit ?_
    rintro _ _ rfl
    exact runs_pure ⟨rfl, rfl⟩
  apply runs_fault
  apply runs_get
  intro s hs
  rw [hs, h]
  refine runs_seq hopen ?_
  rintro _ _ ⟨rfl, rfl⟩
  apply runs_get
  intro s' hs'
  rw [hs', hsource.read, h]
  refine runs_seq (runs_appendBytes synced_opened) ?_
  rintro _ _ rfl
  rw [data_opened, List.nil_append]
  exact runs_pure ⟨rfl, rfl⟩

theorem runs_rename {a b : π} {i : ℕ} (h : d.now a = some i) :
    Runs d (rename a b : EStateM ε (Host π β) _) (fun r d' => r = .ok () ∧ d' = d.move a b) := by
  apply runs_fault
  apply runs_get
  intro s hs
  rw [hs, h]
  refine runs_seq runs_visit ?_
  rintro _ _ rfl
  exact runs_pure ⟨rfl, rfl⟩

end Undisturbed

end CrashFiles
