/-
Module: Remgr.Lib.Files
Purpose: A directory of regular files as the system calls of one program see it: names that lead to
  files, and the bytes of each file. Opening truncates, writing goes to an offset of the file that was
  opened, and renaming changes where a name leads.
Trusted boundary: the definitions follow `open(O_CREAT | O_TRUNC)`, `pwrite` and `rename` on one file
  system without hard links
Main exports: Files, Files.read, Files.openTruncate, Files.writeAt, Files.rename, Files.Holds
-/
import Mathlib.Logic.Function.Basic
import Mathlib.Data.List.Basic

namespace Remgr.Lib

/-- A file, whatever names lead to it. -/
abbrev Inode := Nat

/-- The files a program sees. No two names lead to the same file. -/
structure Files (ν : Type) where
  names : ν → Option Inode
  data : Inode → List UInt8
  next : Inode
  allocated : ∀ {n i}, names n = some i → i < next
  single : ∀ {m n i}, names m = some i → names n = some i → m = n

namespace Files

variable {ν : Type} {fs : Files ν} {m n src dst : ν} {i : Inode}

/-- The bytes under a name. -/
def read (fs : Files ν) (n : ν) : Option (List UInt8) := (fs.names n).map fs.data

/-- Bytes written at an offset. What lies between the old end and the offset reads as zeros. -/
def splice (old : List UInt8) (offset : Nat) (chunk : List UInt8) : List UInt8 :=
  (old ++ List.replicate (offset - old.length) 0).take offset ++ chunk ++
    old.drop (offset + chunk.length)

def writeAt (fs : Files ν) (i : Inode) (offset : Nat) (chunk : List UInt8) : Files ν :=
  { fs with data := Function.update fs.data i (splice (fs.data i) offset chunk) }

section Names

variable [DecidableEq ν]

/-- A name may be led to a file that no other name leads to. -/
theorem single_update {names : ν → Option Inode}
    (single : ∀ {m n j}, names m = some j → names n = some j → m = n)
    (unused : ∀ m, m ≠ n → names m ≠ some i) {m m' : ν} {j : Inode}
    (leads : Function.update names n (some i) m = some j)
    (leads' : Function.update names n (some i) m' = some j) : m = m' := by
  by_cases here : m = n <;> by_cases here' : m' = n
  · exact here.trans here'.symm
  · rw [here, Function.update_self] at leads
    rw [Function.update_of_ne here'] at leads'
    exact absurd (leads'.trans leads.symm) (unused m' here')
  · rw [here', Function.update_self] at leads'
    rw [Function.update_of_ne here] at leads
    exact absurd (leads.trans leads'.symm) (unused m here)
  · rw [Function.update_of_ne here] at leads
    rw [Function.update_of_ne here'] at leads'
    exact single leads leads'

/-- What a name leads to after it was taken away from one of them. -/
theorem leads_of_removed {names : ν → Option Inode}
    (leads : Function.update names src none m = some i) : m ≠ src ∧ names m = some i := by
  by_cases here : m = src
  · rw [here, Function.update_self] at leads
    cases leads
  · rw [Function.update_of_ne here] at leads
    exact ⟨here, leads⟩

/-- The file under a name with no bytes left in it, or a new one. -/
def openTruncate (fs : Files ν) (n : ν) : Inode × Files ν :=
  match fs.names n with
  | some i => (i, { fs with data := Function.update fs.data i [] })
  | none =>
      (fs.next,
        { names := Function.update fs.names n (some fs.next)
          data := Function.update fs.data fs.next []
          next := fs.next + 1
          allocated := by
            intro m i leads
            by_cases here : m = n
            · rw [here, Function.update_self] at leads
              cases leads
              exact Nat.lt_succ_self _
            · rw [Function.update_of_ne here] at leads
              exact Nat.lt_succ_of_lt (fs.allocated leads)
          single := single_update fs.single fun _ _ leads =>
            absurd (fs.allocated leads) (Nat.lt_irrefl _) })

/-- The new name leads to the file of the old one, which is gone. Fails when there is no file under
the old name. -/
def rename (fs : Files ν) (src dst : ν) : Option (Files ν) :=
  match found : fs.names src with
  | none => none
  | some i =>
      some
        { names := Function.update (Function.update fs.names src none) dst (some i)
          data := fs.data
          next := fs.next
          allocated := by
            intro m j leads
            by_cases here : m = dst
            · rw [here, Function.update_self] at leads
              cases leads
              exact fs.allocated found
            · rw [Function.update_of_ne here] at leads
              exact fs.allocated (leads_of_removed leads).2
          single := by
            refine single_update ?_ ?_
            · intro m m' j leads leads'
              exact fs.single (leads_of_removed leads).2 (leads_of_removed leads').2
            · intro m _ leads
              have ⟨apart, old⟩ := leads_of_removed leads
              exact apart (fs.single old found) }

/-! ## Opening and renaming -/

theorem names_openTruncate : (fs.openTruncate n).2.names n = some (fs.openTruncate n).1 := by
  unfold openTruncate
  split
  · next i found => exact found
  · exact Function.update_self ..

theorem data_openTruncate : (fs.openTruncate n).2.data (fs.openTruncate n).1 = [] := by
  unfold openTruncate
  split
  · exact Function.update_self ..
  · exact Function.update_self ..

/-- Opening a file leaves the files under the other names alone. -/
theorem read_openTruncate (other : m ≠ n) : (fs.openTruncate n).2.read m = fs.read m := by
  unfold openTruncate read
  split
  · next i found =>
      cases leads : fs.names m with
      | none => rfl
      | some j =>
          have apart : j ≠ i := fun same => other (fs.single leads (same ▸ found))
          simp only [Option.map_some, Function.update_of_ne apart]
  · simp only [Function.update_of_ne other]
    cases leads : fs.names m with
    | none => rfl
    | some j =>
        have apart : j ≠ fs.next := Nat.ne_of_lt (fs.allocated leads)
        simp only [Option.map_some, Function.update_of_ne apart]

theorem rename_eq (dst : ν) (leads : fs.names src = some i) :
    ∃ fs', fs.rename src dst = some fs' ∧ fs'.data = fs.data ∧
      fs'.names = Function.update (Function.update fs.names src none) dst (some i) := by
  unfold rename
  split
  · next missing =>
      rw [missing] at leads
      cases leads
  · next j found =>
      rw [found] at leads
      cases leads
      exact ⟨_, rfl, rfl, rfl⟩

/-- After a rename the new name has the bytes of the file that had the old one. -/
theorem read_rename {fs' : Files ν} (renamed : fs.rename src dst = some fs')
    (leads : fs.names src = some i) : fs'.read dst = some (fs.data i) := by
  rcases rename_eq dst leads with ⟨other, same, data, names⟩
  rw [same] at renamed
  cases renamed
  rw [read, names, data, Function.update_self, Option.map_some]

end Names

/-! ## Writing -/

/-- A write at the end of what is there already. -/
theorem splice_end (old chunk : List UInt8) : splice old old.length chunk = old ++ chunk := by
  simp [splice]

/-- A write goes to the file that was opened and no other. -/
theorem read_writeAt {offset : Nat} {chunk : List UInt8} (leads : fs.names n = some i)
    (other : m ≠ n) : (fs.writeAt i offset chunk).read m = fs.read m := by
  unfold writeAt read
  cases found : fs.names m with
  | none => rfl
  | some j =>
      have apart : j ≠ i := fun same => other (fs.single found (same ▸ leads))
      simp only [Option.map_some, Function.update_of_ne apart]

theorem data_writeAt {offset : Nat} {chunk : List UInt8} (length : (fs.data i).length = offset) :
    (fs.writeAt i offset chunk).data i = fs.data i ++ chunk := by
  subst length
  simp only [writeAt, Function.update_self, splice_end]

/-! ## A file with known bytes -/

/-- The name leads to this file, and these are its bytes. -/
def Holds (fs : Files ν) (n : ν) (i : Inode) (bytes : List UInt8) : Prop :=
  fs.names n = some i ∧ fs.data i = bytes

variable {bytes chunk : List UInt8} {offset : Nat} {j : Inode}

theorem Holds.read (holds : fs.Holds n i bytes) : fs.read n = some bytes := by
  rw [Files.read, holds.1, Option.map_some, holds.2]

/-- A write after the bytes that are there appends to them. -/
theorem Holds.append (holds : fs.Holds n i bytes) (atEnd : bytes.length = offset) :
    (fs.writeAt i offset chunk).Holds n i (bytes ++ chunk) :=
  ⟨holds.1, by rw [data_writeAt (by rw [holds.2]; exact atEnd), holds.2]⟩

theorem Holds.writeAt (holds : fs.Holds m j bytes) (leads : fs.names n = some i) (other : m ≠ n) :
    (fs.writeAt i offset chunk).Holds m j bytes := by
  have apart : j ≠ i := fun same => other (fs.single holds.1 (same ▸ leads))
  exact ⟨holds.1, (Function.update_of_ne apart _ _).trans holds.2⟩

section Names

variable [DecidableEq ν]

theorem holds_openTruncate : (fs.openTruncate n).2.Holds n (fs.openTruncate n).1 [] :=
  ⟨names_openTruncate, data_openTruncate⟩

theorem Holds.openTruncate (holds : fs.Holds m j bytes) (other : m ≠ n) :
    (fs.openTruncate n).2.Holds m j bytes := by
  obtain ⟨leads, rfl⟩ := holds
  unfold Files.openTruncate
  split
  · next i found =>
      have apart : j ≠ i := fun same => other (fs.single leads (same ▸ found))
      exact ⟨leads, Function.update_of_ne apart _ _⟩
  · have apart : j ≠ fs.next := Nat.ne_of_lt (fs.allocated leads)
    exact ⟨(Function.update_of_ne other _ _).trans leads, Function.update_of_ne apart _ _⟩

/-- A file is renamed, and only the two names are concerned. -/
theorem Holds.rename (holds : fs.Holds src i bytes) (dst : ν) :
    ∃ fs', fs.rename src dst = some fs' ∧ fs'.read dst = some bytes ∧
      ∀ m, m ≠ src → m ≠ dst → fs'.read m = fs.read m ∧
        ∀ {j data}, fs.Holds m j data → fs'.Holds m j data := by
  obtain ⟨fs', renamed, data, names⟩ := rename_eq dst holds.1
  refine ⟨fs', renamed, ?_, fun m notSrc notDst => ⟨?_, fun other => ?_⟩⟩
  · rw [read_rename renamed holds.1, holds.2]
  · rw [Files.read, Files.read, names, data, Function.update_of_ne notDst, Function.update_of_ne notSrc]
  · exact ⟨by rw [names, Function.update_of_ne notDst, Function.update_of_ne notSrc, other.1],
      by rw [data, other.2]⟩

end Names

end Files

end Remgr.Lib
