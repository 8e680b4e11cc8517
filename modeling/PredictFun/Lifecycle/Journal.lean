import PredictFun.Base.RecordLog
import PredictFun.Base.Storage
import PredictFun.Lifecycle.Record
import PredictFun.Lifecycle.Tracker

namespace PredictFun.Lifecycle

open Base Wire RecordLog Storage

structure JournalOptions where
  maximumRecordBytes : ℕ := 64 * 1024
  flushAfterAppend : Bool := true

structure JournalReplay where
  orders : List TrackedOrder
  recordsApplied : ℕ
  validBytes : ℕ
  ignoredTruncatedTail : Bool
  deriving DecidableEq

structure OrderJournal where
  path : Bytes
  options : JournalOptions

def fileMagic : Bytes := ascii "PFJRNL1\n"

def storageError (message : String) (path : Bytes) : Error := ⟨.storageFailure, ascii message, path, 0, 0⟩

def corrupt (message : Bytes) (path : Bytes) : Error := ⟨.journalCorrupt, message, path, 0, 0⟩

def render (maximum : ℕ) (order : TrackedOrder) : Result (Bytes × Bytes) :=
  (encode order maximum).map (fun payload =>
    (littleEndian 4 (BitVec.ofNat 32 payload.length) ++ littleEndian 4 (crc32 payload), payload))

structure Frame where
  order : TrackedOrder
  size : ℕ

def nextFrame (maximum : ℕ) (path : Bytes) (input : Bytes) : Next Byte Error Frame :=
  if input.length = 0 then .finished
  else if input.length < 8 then .truncated
  else
    let size : BitVec 32 := ofLittleEndian 0 (input.take 4)
    let expectedCrc : BitVec 32 := ofLittleEndian 0 ((input.drop 4).take 4)
    let rest := input.drop 8
    if size.toNat > maximum then
      .corrupt (corrupt (ascii "lifecycle journal frame exceeds configured bound") path)
    else if rest.length < size.toNat then .truncated
    else if crc32 (rest.take size.toNat) ≠ expectedCrc then
      .corrupt (corrupt (ascii "lifecycle journal checksum mismatch") path)
    else
      match decode (rest.take size.toNat) with
      | .error error => .corrupt (corrupt error.message path)
      | .ok order => .record ⟨order, size.toNat⟩ (rest.drop size.toNat)

def frames (maximum : ℕ) (path : Bytes) : Reader Byte Error Frame where
  next := nextFrame maximum path
  shrinks := by
    intro input value rest h
    unfold nextFrame at h
    dsimp only at h
    split at h
    · cases h
    next h0 =>
      split at h
      · cases h
      next h8 =>
        split at h
        · cases h
        · split at h
          · cases h
          · split at h
            · cases h
            · split at h
              · cases h
              · cases h
                simp only [List.length_drop]
                omega

structure Replaying where
  latest : KeyedMap Bytes TrackedOrder
  recordsApplied : ℕ
  validBytes : ℕ
  ignoredTruncatedTail : Bool

def Replaying.apply (s : Replaying) (frame : Frame) : Replaying :=
  ⟨s.latest.insert frame.order.orderHash frame.order, s.recordsApplied + 1, s.validBytes + (8 + frame.size),
    s.ignoredTruncatedTail⟩

def Replaying.torn (s : Replaying) : Replaying := { s with ignoredTruncatedTail := true }

def Replaying.finish (s : Replaying) : JournalReplay :=
  ⟨s.latest.sortedValues TrackedOrder.orderHash, s.recordsApplied, s.validBytes, s.ignoredTruncatedTail⟩

namespace OrderJournal

variable (journal : OrderJournal)

def sync : Disk Byte Error Unit := do
  attempt (storageError "cannot open lifecycle journal for durable sync" journal.path)
  attempt (storageError "cannot durably sync lifecycle journal" journal.path)

def createDirectories : Disk Byte Error Unit :=
  if byte '/' ∈ journal.path then attempt (storageError "cannot create journal directory" journal.path) else pure ()

def createFile : Disk Byte Error Unit := do
  create (storageError "cannot create lifecycle journal" journal.path)
  write (storageError "cannot initialize lifecycle journal" journal.path) fileMagic
  attempt (storageError "cannot initialize lifecycle journal" journal.path)
  if journal.options.flushAfterAppend then journal.sync else pure ()

def initializeFile : Disk Byte Error Unit :=
  if journal.path = [] then ofResult (fail .invalidArgument "lifecycle journal path must not be empty" "path")
  else if journal.options.maximumRecordBytes < 128 then
    ofResult (fail .invalidArgument "maximum journal record size is too small" "maximum_record_bytes")
  else do
    journal.createDirectories
    let file ← contents
    if file.isSome then pure () else journal.createFile

def flushAndClose : Disk Byte Error Unit :=
  if journal.options.flushAfterAppend then do
    attempt (storageError "cannot flush lifecycle journal" journal.path)
    attempt (storageError "cannot close lifecycle journal" journal.path)
    journal.sync
  else pure ()

-- a record that cannot be encoded ends the loop; the records before it stay in the stream and reach the file
def append (orders : List TrackedOrder) : Disk Byte Error Unit := do
  journal.initializeFile
  attempt (storageError "cannot open lifecycle journal" journal.path)
  writeEach (render journal.options.maximumRecordBytes)
    (storageError "cannot append lifecycle journal record" journal.path) orders
  journal.flushAndClose

def replayBytes (file : Bytes) : Result JournalReplay :=
  if file.take fileMagic.length = fileMagic then
    (scan (frames journal.options.maximumRecordBytes journal.path) Replaying.apply Replaying.torn
      ⟨∅, 0, fileMagic.length, false⟩ (file.drop fileMagic.length)).map Replaying.finish
  else .error (corrupt (ascii "invalid lifecycle journal header") journal.path)

def replay : Disk Byte Error JournalReplay := do
  match ← contents with
  | none => refuse (storageError "cannot open lifecycle journal" journal.path)
  | some file => ofResult (journal.replayBytes file)

end OrderJournal

end PredictFun.Lifecycle
