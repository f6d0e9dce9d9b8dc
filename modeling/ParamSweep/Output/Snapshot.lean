import ParamSweep.Value.JsonSkip
import ParamSweep.Files.Tree

/-!
Snapshots of a running simulation: a time and the samples of named fields.

A snapshot is a JSON text such as `{"time": 0.25, "fields": {"rho": [1.0, "nan"]}}`, or the list of
those two. Samples that are not finite are written as texts. It is read from left to right, and the
first fault counts; that there is no time is found at the end of the mapping. Of fields with one
name the last one counts, other keys are passed over.
-/

namespace ParamSweep

/-- The state of a simulation at a time. -/
structure Snapshot where
  time : Float
  fields : Entries (List Float) := []
  deriving Inhabited

namespace Snapshot

/-- All samples. -/
def samples (s : Snapshot) : List Float := s.fields.flatMap (·.2)

/-- Whether a sample is not a number. -/
def hasNaN (s : Snapshot) : Bool := s.samples.any Float.isNaN

/-- Whether a sample is infinite. -/
def hasInf (s : Snapshot) : Bool := s.samples.any Float.isInf

/-- A letter from `A` to `Z` as a small one. -/
def smallLetter (c : Char) : Char := if 'A' ≤ c && c ≤ 'Z' then c.toLower else c

/-- The sample that a text spells. -/
def sampleOfText? (text : String) : Option Float :=
  let inf : Float := 1.0 / 0.0
  match String.ofList ((Text.trim text.toList).map smallLetter) with
  | "nan" | "-nan" => some (0.0 / 0.0)
  | "inf" | "+inf" | "infinity" => some inf
  | "-inf" | "-infinity" => some (-inf)
  | _ => none

/-- The double that a number is or is nearest to. -/
def doubleOf : Number → Float
  | .int n => Float.ofInt n
  | .float x => x

/-- A sample as it is written: a number or a text. -/
inductive Written where
  | number (x : Float)
  | text (s : String)

/-- The samples as they are written in the items of a list. -/
def writtenSamples? : List Value → Option (List Written)
  | [] => some []
  | .num n :: rest => (writtenSamples? rest).map (.number (doubleOf n) :: ·)
  | .str s :: rest => (writtenSamples? rest).map (.text s :: ·)
  | _ => none

/-- The fields as they are written in the entries of a mapping. -/
def writtenFields? : List (String × Value) → Option (List (String × List Written))
  | [] => some []
  | (name, .list items) :: rest => do
    let written ← writtenSamples? items
    let fields ← writtenFields? rest
    some ((name, written) :: fields)
  | _ => none

/-- The samples of a field. -/
def samplesOf (field : String) : List Written → Except SnapshotFault (List Float)
  | [] => .ok []
  | .number x :: rest => (samplesOf field rest).map (x :: ·)
  | .text s :: rest =>
    match sampleOfText? s with
    | some x => (samplesOf field rest).map (x :: ·)
    | none => .error (.unsupportedSample field s)

/-- The samples of all fields. -/
def fieldsOf : Entries (List Written) → Except SnapshotFault (Entries (List Float))
  | [] => .ok []
  | (name, written) :: rest => do
    let samples ← samplesOf name written
    let fields ← fieldsOf rest
    .ok ((name, samples) :: fields)

/-- The nesting that is left inside a field table. -/
def fieldDepth : Nat := Json.maxDepth - 2

/-- Reads the field table that a text starts with. -/
def readFields (cs : List Char) : Except SnapshotFault (Entries (List Float) × List Char) :=
  let pairs := match Json.skip cs with
    | '\x7b' :: rest =>
      match Json.skip rest with
      | '\x7d' :: r => some ([], r)
      | r => Json.entries? (2 * r.length + 2) fieldDepth r
    | _ => none
  match pairs.bind fun (es, rest) => (writtenFields? es).map fun fs => (fs, rest) with
  | none => .error .unreadable
  | some (written, rest) => (fieldsOf (Entries.ofList written)).map fun fields => (fields, rest)

/-- Reads the time that a text starts with. -/
def readTime (cs : List Char) : Except SnapshotFault (Float × List Char) :=
  match Json.number? (Json.skip cs) with
  | some (n, rest) => .ok (doubleOf n, rest)
  | none => .error .unreadable

/-- What has been read of a snapshot. -/
structure Draft where
  time : Option Float := none
  fields : Option (Entries (List Float)) := none

/-- Reads the value of a key into a draft. -/
def readEntry (d : Draft) (key : String) (cs : List Char) :
    Except SnapshotFault (Draft × List Char) :=
  match key with
  | "time" =>
    if d.time.isSome then .error .unreadable
    else (readTime cs).map fun (time, rest) => ({ d with time := some time }, rest)
  | "fields" =>
    if d.fields.isSome then .error .unreadable
    else (readFields cs).map fun (fields, rest) => ({ d with fields := some fields }, rest)
  | _ =>
    match Json.skipFirst? cs with
    | some rest => .ok (d, rest)
    | none => .error .unreadable

/-- Reads the entries of a snapshot, from a key on, up to and including the closing brace. -/
def readEntries : Nat → Draft → List Char → Except SnapshotFault (Draft × List Char)
  | 0, _, _ => .error .unreadable
  | fuel + 1, d, cs =>
    match (Json.string? (Json.skip cs)).map fun (key, rest) => (key, Json.skip rest) with
    | some (key, ':' :: rest) => do
      let (d, rest) ← readEntry d key rest
      match Json.skip rest with
      | '\x7d' :: r => .ok (d, r)
      | ',' :: r => readEntries fuel d r
      | _ => .error .unreadable
    | _ => .error .unreadable

/-- The snapshot that a draft holds. -/
def ofDraft (d : Draft) : Except SnapshotFault Snapshot :=
  match d.time with
  | some time => .ok ⟨time, d.fields.getD []⟩
  | none => .error (.missingField "time")

/-- Reads the snapshot that a text starts with. -/
def readFirst (cs : List Char) : Except SnapshotFault (Snapshot × List Char) :=
  match Json.skip cs with
  | '\x7b' :: rest =>
    match Json.skip rest with
    | '\x7d' :: r => (ofDraft {}).map fun s => (s, r)
    | r => do
      let (d, rest) ← readEntries (r.length + 1) {} r
      let s ← ofDraft d
      .ok (s, rest)
  | '[' :: rest => do
    let (time, rest) ← readTime rest
    match Json.skip rest with
    | ']' :: r => .ok (⟨time, []⟩, r)
    | ',' :: r =>
      let (fields, rest) ← readFields r
      match Json.skip rest with
      | ']' :: r => .ok (⟨time, fields⟩, r)
      | _ => .error .unreadable
    | _ => .error .unreadable
  | _ => .error .unreadable

/-- The snapshot that a text stands for. -/
def ofText (text : String) : Except SnapshotFault Snapshot := do
  let (s, rest) ← readFirst text.toList
  if (Json.skip rest).isEmpty then .ok s else .error .unreadable

/-- The snapshot that bytes stand for. -/
def ofBytes (bytes : ByteArray) : Except SnapshotFault Snapshot :=
  match Text.utf8? bytes with
  | some text => ofText text
  | none => .error .unreadable

/-- A key by which doubles are put in order, the negative zero before the positive one. -/
def orderKey (x : Float) : Int :=
  let n := x.toBits.toNat
  if n < 0x8000000000000000 then n else -((n - 0x8000000000000000 : Nat) : Int) - 1

/-- The snapshots in the order of their times; those of one time keep their order. -/
def sortByTime (snapshots : List Snapshot) : List Snapshot :=
  snapshots.mergeSort fun a b => orderKey a.time ≤ orderKey b.time

/-- The names of the snapshot files among the entries of a directory. -/
def fileNames (entries : Entries Node) : List String :=
  (entries.filter fun (name, n) => n.isFile && Path.extension? name == some "json").map (·.1)

/-- Reads the named snapshot files of a directory. -/
def loadFiles (t : FileTree) (dir : String) : List String → Except Error (List Snapshot)
  | [] => .ok []
  | name :: rest => do
    let path := Path.join dir name
    let bytes ← (t.readBytes path).mapError (Error.file path)
    let s ← (ofBytes bytes).mapError fun fault => .configuration (.invalidSnapshot path fault)
    let others ← loadFiles t dir rest
    .ok (s :: others)

/-- The snapshots in a directory, in the order of their times. There are none where there is no
directory. -/
def load (t : FileTree) (dir : String) : Except Error (List Snapshot) :=
  match t.list dir with
  | .ok entries => (loadFiles t dir (fileNames entries)).map sortByTime
  | .error _ => .ok []

end Snapshot

end ParamSweep
