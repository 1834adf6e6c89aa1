import Tlsdate.HostBytes
import Tlsdate.TimeSource

namespace Tlsdate.TimestampFile

open HostBytes TimeSource

abbrev File := Option (List UInt8)

def timeSize : Nat := 8

/-- A write at offset 0 to a file that is not truncated. -/
def pwrite (old new : List UInt8) : List UInt8 := new ++ old.drop new.length

/-- `open` with O_CREAT and without O_TRUNC. -/
def create (file : File) : File := some (file.getD [])

def saveTimestamp (order : ByteOrder) (t : Int) : List UInt8 := encodeSigned order timeSize t

/-- `file_read`: all of the bytes asked for from offset 0, or failure. -/
def fileRead (bytes : List UInt8) (sz : Nat) : Option (List UInt8) :=
  if bytes.length < sz then none else some (bytes.take sz)

/-- The return value of `load_disk_timestamp` and what it leaves in `*t`. -/
def loadDiskTimestamp (build : Build) (order : ByteOrder) (file : File) (t : Int) : Int × Int :=
  match file with
  | none => (-1, t)
  | some bytes =>
      match fileRead bytes timeSize with
      | none => (-1, t)
      | some word =>
          let tmpt := decodeSigned order word
          if isSaneTime build tmpt then (0, tmpt) else (-1, t)

variable {build : Build} {order : ByteOrder}

theorem loadDiskTimestamp_create (file : File) (t : Int) :
    loadDiskTimestamp build order (create file) t = loadDiskTimestamp build order file t := by
  cases file with
  | none => rfl
  | some bytes => rfl

theorem fileRead_pwrite (old : List UInt8) (t : Int) :
    fileRead (pwrite old (saveTimestamp order t)) timeSize = some (saveTimestamp order t) := by
  have hl : (saveTimestamp order t).length = timeSize := encodeSigned_length order timeSize t
  have hge : ¬ (pwrite old (saveTimestamp order t)).length < timeSize := by
    simp only [pwrite, List.length_append, hl]
    omega
  rw [fileRead, if_neg hge, pwrite, List.take_append_of_le_length (by omega), ← hl, List.take_length]

theorem sane_bmod {t : Int} (h : isSaneTime build t = true) : Int.bmod t (256 ^ timeSize) = t := by
  have hlo := isSaneTime_pos h
  have hhi := (isSaneTime_iff.mp h).2
  simp only [tlsdatedMaxDate] at hhi
  rw [Int.bmod_def, timeSize]
  split <;> omega

theorem loadDiskTimestamp_saved (old : List UInt8) {t : Int} (h : isSaneTime build t = true)
    (t₀ : Int) :
    loadDiskTimestamp build order (some (pwrite old (saveTimestamp order t))) t₀ = (0, t) := by
  have hd : decodeSigned order (saveTimestamp order t) = t :=
    decodeSigned_encodeSigned order timeSize t (sane_bmod h)
  simp only [loadDiskTimestamp, fileRead_pwrite, hd, h, if_true]

end Tlsdate.TimestampFile
