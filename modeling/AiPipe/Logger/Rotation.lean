import Mathlib.Logic.Function.Basic
import Mathlib.Data.String.Basic

/-!
`Logger::rotateFile` on a file system that is a map from names to contents, whose operations
all succeed.
-/

namespace AiPipe.Logger

open Function

abbrev Files := String → Option String

namespace Files

variable (files : Files)

def remove (name : String) : Files := Function.update files name none

def rename (old new : String) : Files := Function.update (Function.update files new (files old)) old none

/-- Opened with `std::ios::app`. -/
def reopen (name : String) : Files := Function.update files name (some ((files name).getD ""))

end Files

structure LoggerConfig where
  maxFileSize : Nat := 10 * 1024 * 1024
  maxBackupCount : Int := 5
  filePath : String

/-- What stands at the log's own name when a rotation begins, and what `tellp()` returns. -/
structure Rotation where
  held : Option String
  position : Int

section Model

variable (config : LoggerConfig) (files : Files)

def backup (index : Nat) : String :=
  config.filePath ++ if 0 < index then "." ++ index.repr else ""

/-- The passes of the loop from one index down to 0. -/
def shiftBackups : Nat → Files → Files
  | 0, files => files
  | index + 1, files => shiftBackups index <|
    if (files (backup config index)).isSome then
      if index = config.maxBackupCount - 1 then files.remove (backup config index)
      else files.rename (backup config index) (backup config (index + 1))
    else files

def rotateFile (position : Int) : Files :=
  if position < 0 ∨ position.toNat < config.maxFileSize then files
  else (shiftBackups config config.maxBackupCount.toNat files).reopen config.filePath

def beforeRotation (held : Option String) : Files := Function.update files config.filePath held

/-- The files after some rotations, the latest of them first. -/
def rotated : List Rotation → Files
  | [] => files
  | latest :: older =>
    rotateFile config (beforeRotation config (rotated older) latest.held) latest.position

/-- The contents that were rotated, latest first, and then the backups there were before. -/
def recent : List Rotation → Nat → Option String
  | [], index => files (backup config (index + 1))
  | latest :: _, 0 => latest.held
  | _ :: older, index + 1 => recent older index

structure Moves (count : Nat) (before after : Files) : Prop where
  moved : ∀ index < count, after (backup config (index + 1)) = before (backup config index)
  reopened : after config.filePath = some ""
  others : ∀ name, (∀ index ≤ count, name ≠ backup config index) → after name = before name

/-- The latest of some rotations moves every backup up, and the backups are then the newest
contents. -/
structure KeepsNewest (count : Nat) (latest : Rotation) (older : List Rotation) : Prop where
  moves : Moves config count (beforeRotation config (rotated config files older) latest.held)
    (rotated config files (latest :: older))
  newest : ∀ index < count, rotated config files (latest :: older) (backup config (index + 1)) =
    recent config files (latest :: older) index

end Model

variable {config : LoggerConfig}

theorem backup_zero : backup config 0 = config.filePath := String.append_empty

theorem backup_inj {index other : Nat} : backup config index = backup config other ↔ index = other := by
  refine ⟨fun same => ?_, fun same => same ▸ rfl⟩
  have suffixes := (String.append_right_inj config.filePath).mp same
  have filled (number : Nat) : "." ++ number.repr ≠ "" := by simp
  by_cases first : 0 < index <;> by_cases second : 0 < other <;>
    simp only [first, second, if_true, if_false] at suffixes
  · have digits := congrArg String.toList ((String.append_right_inj ".").mp suffixes)
    rw [Nat.toList_repr, Nat.toList_repr] at digits
    rw [← Nat.ofDigitChars_toDigits (b := 10) (n := index) (by decide) (by decide), digits,
      Nat.ofDigitChars_toDigits (by decide) (by decide)]
  · exact absurd suffixes (filled index)
  · exact absurd suffixes.symm (filled other)
  · omega

theorem backup_ne (index : Nat) : backup config (index + 1) ≠ config.filePath := by
  rw [← backup_zero, Ne, backup_inj]
  exact Nat.succ_ne_zero index

theorem shiftBackups_moves {passes : Nat} (files : Files) (low : passes < config.maxBackupCount)
    (gone : files (backup config passes) = none) :
    (∀ index < passes, shiftBackups config passes files (backup config (index + 1)) =
        files (backup config index)) ∧
      shiftBackups config passes files (backup config 0) = none ∧
      ∀ name, (∀ index ≤ passes, name ≠ backup config index) →
        shiftBackups config passes files name = files name := by
  induction passes generalizing files with
  | zero => exact ⟨fun _ none => absurd none (Nat.not_lt_zero _), gone, fun _ _ => rfl⟩
  | succ passes ih =>
    -- a pass leaves what stood at its index at the next one, and nothing at its index
    let next := files.rename (backup config passes) (backup config (passes + 1))
    have pass : shiftBackups config (passes + 1) files = shiftBackups config passes next := by
      rw [shiftBackups, if_neg (by omega : (passes : Int) ≠ config.maxBackupCount - 1)]
      cases held : files (backup config passes) with
      | some text => rfl
      | none =>
        have same : next = files := by
          change update (update files _ _) _ none = files
          rw [held, ← gone, update_eq_self, gone, ← held, update_eq_self]
        rw [same]
        rfl
    obtain ⟨moved, first, others⟩ := ih next (by omega) (update_self ..)
    rw [pass]
    refine ⟨fun index before => ?_, first, fun name apart => ?_⟩
    · rcases Nat.lt_succ_iff_lt_or_eq.mp before with earlier | rfl
      · rw [moved index earlier]
        simp [next, Files.rename, backup_inj, earlier.ne, before.ne]
      · rw [others _ fun other low same => absurd (backup_inj.mp same) (by omega)]
        simp [next, Files.rename, backup_inj]
    · rw [others name fun index low => apart index (by omega)]
      simp [next, Files.rename, apart passes (by omega), apart (passes + 1) le_rfl]

section Rotations

variable {count : Nat} (kept : config.maxBackupCount = count + 1) (files : Files)
include kept

/-- The backup at the highest index is never written, and the one below it is deleted. -/
theorem rotateFile_moves {position : Int} (due : config.maxFileSize ≤ position) :
    Moves config count files (rotateFile config files position) ∧
      rotateFile config files position (backup config (count + 1)) =
        files (backup config (count + 1)) := by
  let last := files.remove (backup config count)
  have pass : rotateFile config files position =
      (shiftBackups config count last).reopen config.filePath := by
    rw [rotateFile, if_neg (by omega), kept, show ((count : Int) + 1).toNat = count + 1 by omega,
      shiftBackups, if_pos (by omega : (count : Int) = config.maxBackupCount - 1)]
    cases held : files (backup config count) with
    | some text => rfl
    | none =>
      have same : last = files := by
        refine (congrArg (update files _) held.symm).trans ?_
        exact update_eq_self _ files
      rw [same]
      rfl
  obtain ⟨moved, first, others⟩ := shiftBackups_moves last (by omega) (update_self ..)
  rw [backup_zero] at first
  rw [pass]
  refine ⟨⟨fun index low => ?_, ?_, fun name apart => ?_⟩, ?_⟩
  · refine (update_of_ne (backup_ne index) ..).trans ((moved index low).trans ?_)
    exact update_of_ne (fun same => low.ne (backup_inj.mp same)) ..
  · rw [Files.reopen, update_self, first]
    rfl
  · refine (update_of_ne (backup_zero ▸ apart 0 (Nat.zero_le _)) ..).trans ?_
    exact (others name apart).trans (update_of_ne (apart count le_rfl) ..)
  · refine (update_of_ne (backup_ne count) ..).trans ((others _ ?_).trans ?_)
    · exact fun index low same => absurd (backup_inj.mp same) (by omega)
    · exact update_of_ne (fun same => absurd (backup_inj.mp same) (by omega)) ..

theorem rotated_recent {rotations : List Rotation}
    (due : ∀ rotation ∈ rotations, config.maxFileSize ≤ rotation.position) :
    (∀ index < count, rotated config files rotations (backup config (index + 1)) =
        recent config files rotations index) ∧
      rotated config files rotations (backup config (count + 1)) =
        files (backup config (count + 1)) := by
  induction rotations with
  | nil => exact ⟨fun _ _ => rfl, rfl⟩
  | cons latest older ih =>
    obtain ⟨now, before⟩ := List.forall_mem_cons.mp due
    obtain ⟨moves, last⟩ :=
      rotateFile_moves kept (beforeRotation config (rotated config files older) latest.held) now
    obtain ⟨newest, untouched⟩ := ih before
    refine ⟨fun index low => (moves.moved index low).trans ?_, last.trans ?_⟩
    · cases index with
      | zero => rw [backup_zero, beforeRotation, update_self, recent]
      | succ index =>
        rw [beforeRotation, update_of_ne (backup_ne index), recent, newest index (by omega)]
    · rw [beforeRotation, update_of_ne (backup_ne count), untouched]

/-- Whatever stood at the highest index stays there, so the rotations are right exactly when
that is what is due there. -/
theorem rotation_keeps_newest_iff (latest : Rotation) (older : List Rotation)
    (due : ∀ rotation ∈ latest :: older, config.maxFileSize ≤ rotation.position) :
    KeepsNewest config files (count + 1) latest older ↔
      recent config files (latest :: older) count = files (backup config (count + 1)) := by
  obtain ⟨now, before⟩ := List.forall_mem_cons.mp due
  obtain ⟨newest, last⟩ := rotated_recent kept files due
  obtain ⟨moves, -⟩ :=
    rotateFile_moves kept (beforeRotation config (rotated config files older) latest.held) now
  have arrives : beforeRotation config (rotated config files older) latest.held (backup config count) =
      recent config files (latest :: older) count := by
    cases count with
    | zero => rw [backup_zero, beforeRotation, update_self, recent]
    | succ count =>
      rw [beforeRotation, update_of_ne (backup_ne count), recent,
        (rotated_recent kept files before).1 count (by omega)]
  constructor
  · rintro ⟨-, newest⟩
    rw [← newest count (Nat.lt_succ_self count), last]
  · intro same
    refine ⟨⟨fun index low => ?_, moves.reopened, fun name apart => ?_⟩, fun index low => ?_⟩
    · rcases Nat.lt_succ_iff_lt_or_eq.mp low with earlier | rfl
      · exact moves.moved index earlier
      · rw [last, arrives, same]
    · exact moves.others name fun index low => apart index (by omega)
    · rcases Nat.lt_succ_iff_lt_or_eq.mp low with earlier | rfl
      · exact newest index earlier
      · rw [last, same]

end Rotations

def backups (count : Int) : LoggerConfig where
  maxFileSize := 256
  maxBackupCount := count
  filePath := "rotate.log"

theorem rotation_keeps_newest_twice :
    KeepsNewest (backups 3) (fun _ => none) 3 ⟨some "two", 256⟩ [⟨some "one", 256⟩] :=
  (rotation_keeps_newest_iff (show (backups 3).maxBackupCount = 2 + 1 from rfl) (fun _ => none)
    ⟨some "two", 256⟩ [⟨some "one", 256⟩] (by decide)).mpr rfl

/-- The second rotation deletes the first content instead of moving it to `rotate.log.2`. -/
theorem second_backup_is_deleted :
    ¬ KeepsNewest (backups 2) (fun _ => none) 2 ⟨some "two", 256⟩ [⟨some "one", 256⟩] := by
  intro keeps
  have kept := keeps.newest 1 (by decide)
  have gone : rotated (backups 2) (fun _ => none) [⟨some "two", 256⟩, ⟨some "one", 256⟩]
      (backup (backups 2) 2) = none := by decide +kernel
  rw [gone] at kept
  cases kept

end AiPipe.Logger
