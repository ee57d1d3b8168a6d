import BucketFs.Bytes.Basic
import BucketFs.Error

/-!
# The local file of an upload

An upload asks three things of a local file: its size, its content and the bytes of a range.
-/

namespace BucketFs

/-- One request about a local file. -/
inductive FileCall where
  | size (file : String)
  | read (file : String)
  | readAt (file : String) (range : ByteRange)
  deriving DecidableEq, Repr

/-- The type of what a file call that succeeds is answered by. -/
abbrev FileCall.Value : FileCall → Type
  | .size _ => Nat
  | .read _ => Bytes
  | .readAt _ _ => Bytes

/-- What stands at the name of a local file. -/
inductive LocalFile where
  | absent
  /-- A directory has a size but no content to read. -/
  | directory (size : Nat)
  | regular (content : Bytes)
  deriving DecidableEq, Repr

namespace LocalFile

/-- The file cut off after `length` bytes, or filled up with zeros to that length. -/
def resize (length : Nat) : LocalFile → LocalFile
  | .regular content =>
    .regular (content.take length ++ List.replicate (length - content.length) 0)
  | file => file

/-- The answer to a call. -/
def answer (file : LocalFile) : (c : FileCall) → Result c.Value
  | .size name =>
    match file with
    | .absent => .error (.internal (.fileStat name))
    | .directory size => .ok size
    | .regular content => .ok content.length
  | .read name =>
    match file with
    | .regular content => .ok content
    | _ => .error (.internal (.fileRead name))
  | .readAt name range =>
    match file with
    | .absent => .error (.internal (.fileOpen name))
    | .directory _ => .error (.internal (.fileReadAt name range))
    | .regular content =>
      if range.stop ≤ content.length ∨ range.stop ≤ range.start then
        .ok (content.slice range.start range.stop)
      else .error (.internal (.fileReadAt name range))

end LocalFile

end BucketFs
