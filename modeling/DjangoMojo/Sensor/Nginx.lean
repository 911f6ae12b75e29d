import DjangoMojo.Foundation.Lines
import DjangoMojo.Foundation.Trace

/-! # The tail of the nginx log

The collector reads at most a chunk of the log at each poll and keeps a cursor with a
digest of the bytes before it. A line that is not complete is left for the next poll,
unless the chunk is full.
-/

namespace DjangoMojo.Sensor

open Foundation

def cursorAnchorBytes : Nat := 256
def maxStructuredLineBytes : Nat := 256 * 1024

/-- The part of the nginx section that `validate_config` accepts. -/
structure NginxConfig where
  maxBytesPerPoll : Nat
  maxLineBytes : Nat := maxStructuredLineBytes
  maxBytesPerPoll_le : 4096 ≤ maxBytesPerPoll ∧ maxBytesPerPoll ≤ 64 * 1024 * 1024 := by decide
  maxLineBytes_eq : maxLineBytes = maxStructuredLineBytes := by decide

structure LogFile where
  device : Nat
  inode : Nat
  content : Bytes

structure NginxCursor where
  device : Nat
  inode : Nat
  offset : Nat
  anchorSha256 : Option String

/-- What `_read_path` does with a line once it is parsed: nothing, an observation, or an
error, which is counted. -/
abbrev LineDetector (Found : Type) := Bytes → Except Unit (Option Found)

structure NginxRead (Found : Type) where
  handed : List Bytes
  observations : List Found
  cursor : Option NginxCursor
  malformed : Nat

variable {Found : Type} (config : NginxConfig) (digest : Bytes → String)
  (detect : LineDetector Found)

/-- `_anchor`. -/
def anchor (content : Bytes) (offset : Nat) : String :=
  let start := offset - cursorAnchorBytes
  digest ((content.drop start).take (offset - start))

def NginxConfig.lineLimit (config : NginxConfig) : Nat :=
  min config.maxLineBytes maxStructuredLineBytes

namespace LogFile

def startOffset (file : LogFile) (cursor : Option NginxCursor) : Nat :=
  match cursor.filter fun saved => saved.device = file.device && saved.inode = file.inode with
  | some saved =>
    let offset := if saved.offset ≤ file.content.length then saved.offset else 0
    match saved.anchorSha256 with
    | some sha =>
      if offset ≠ 0 ∧ sha ≠ "" ∧
          (sha.length ≠ 64 ∨ anchor digest file.content offset ≠ sha) then 0
      else offset
    | none => offset
  | none =>
    if config.maxBytesPerPoll < file.content.length then
      file.content.length - config.maxBytesPerPoll
    else 0

/-- The offset at which a poll reads: the anchor is checked once more after a read. -/
def readOffset (file : LogFile) (cursor : Option NginxCursor) : Nat :=
  let offset := file.startOffset config digest cursor
  match cursor.bind NginxCursor.anchorSha256 with
  | some sha => if offset ≠ 0 ∧ sha ≠ "" ∧ anchor digest file.content offset ≠ sha then 0 else offset
  | none => offset

end LogFile

/-- `data.endswith(b"\n")`. -/
def endsWithNewline (data : Bytes) : Bool := data.getLast? = some newline

/-- `data.startswith(b"{")`. -/
def startsWithBrace (data : Bytes) : Bool := data.head? = some 0x7B

/-- The lines of a chunk without those that may be parts of lines, and the offset of the
next poll. -/
def chunkLines (maximum offset : Nat) (data : Bytes) : List Bytes × Nat × Nat :=
  let ending := offset + data.length
  let lines := splitLines data
  let resumed := offset ≠ 0 && !data.isEmpty && !startsWithBrace data
  let rest := if resumed then lines.drop 1 else lines
  let skipped := if resumed then 1 else 0
  if data.isEmpty || endsWithNewline data then (rest, ending, skipped)
  else if maximum ≤ data.length then (rest.dropLast, ending, skipped + 1)
  else (rest.dropLast, ending - (rest.getLast?.getD []).length, skipped)

def anchorOffset (maximum offset : Nat) (data : Bytes) : Nat :=
  if !data.isEmpty && !endsWithNewline data && data.length < maximum then
    offset + completeLength data
  else offset + data.length

def countErrors (detect : LineDetector Found) (lines : List Bytes) : Nat :=
  lines.countP fun line =>
    match detect line with
    | .error _ => true
    | .ok _ => false

def detected (detect : LineDetector Found) (lines : List Bytes) : List Found :=
  lines.filterMap fun line =>
    match detect line with
    | .ok found => found
    | .error _ => none

/-- `_read_path` of a regular file; without a file the cursor stays. -/
def readPath (file : Option LogFile) (cursor : Option NginxCursor) : NginxRead Found :=
  match file with
  | none => { handed := [], observations := [], cursor := cursor, malformed := 0 }
  | some file =>
    let offset := file.readOffset config digest cursor
    let data := (file.content.drop offset).take config.maxBytesPerPoll
    let (lines, ending, skipped) := chunkLines config.maxBytesPerPoll offset data
    let handed := lines.filter fun line => line.length ≤ config.lineLimit
    { handed := handed
      observations := detected detect handed
      cursor := some
        { device := file.device
          inode := file.inode
          offset := ending
          anchorSha256 := some (anchor digest file.content
            (anchorOffset config.maxBytesPerPoll offset data)) }
      malformed := skipped + (lines.length - handed.length) + countErrors detect handed }

/-! ### Polls and appends -/

inductive LogAction where
  | append (bytes : Bytes)
  | poll

structure LogState where
  file : LogFile
  cursor : Option NginxCursor
  handed : List Bytes := []
  drained : Bool := false

def LogState.opened (device inode : Nat) : LogState :=
  let file : LogFile := { device := device, inode := inode, content := [] }
  { file := file, cursor := (readPath config digest detect (some file) none).cursor }

def LogState.polled (state : LogState) : LogState :=
  let offset := state.file.readOffset config digest state.cursor
  let read := readPath config digest detect (some state.file) state.cursor
  { file := state.file
    cursor := read.cursor
    handed := state.handed ++ read.handed
    drained := state.file.content.length ≤ offset + config.maxBytesPerPoll }

def logStep (state : LogState) : LogAction → Option LogState
  | .append bytes =>
    some { state with
      file := { state.file with content := state.file.content ++ bytes }
      drained := false }
  | .poll => some (state.polled config digest detect)

end DjangoMojo.Sensor
