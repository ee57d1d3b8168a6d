/-!
# Punycode

Names of hosts are ASCII.  A label with other characters is written as its ASCII characters, a
hyphen, and a sequence of numbers of variable length in base 36 which say, one after the other, what
character comes next in order and where it is inserted.  `decode?` reads such a label; its
loops end because every number takes at least one digit and every quotient is smaller.
-/

namespace BucketFs.Text.Punycode

/-- The value of a digit: letters of either case come first, then the ten digits. -/
def digit? (c : Char) : Option Nat :=
  let n := c.toNat
  if 97 ≤ n ∧ n ≤ 122 then some (n - 97)
  else if 65 ≤ n ∧ n ≤ 90 then some (n - 65)
  else if 48 ≤ n ∧ n ≤ 57 then some (n - 22)
  else none

/-- The value below which a digit ends its number, at a position counted in steps of 36. -/
def threshold (position bias : Nat) : Nat :=
  if position ≤ bias then 1 else if bias + 26 ≤ position then 26 else position - bias

/-- Divides by 35 until at most 455 is left; the second number counts the steps by 36. -/
def settle (delta steps : Nat) : Nat × Nat :=
  if 455 < delta then settle (delta / 35) (steps + 36) else (delta, steps)
termination_by delta
decreasing_by omega

/-- The bias after a number: it follows the sizes of the numbers read so far. -/
def adapt (delta count : Nat) (first : Bool) : Nat :=
  let scaled := if first then delta / 700 else delta / 2
  let (rest, steps) := settle (scaled + scaled / count) 0
  steps + 36 * rest / (rest + 38)

/-- Reads a number at a position with a weight, on top of a sum, and returns what is left. -/
def number? (bias : Nat) : List Char → Nat → Nat → Nat → Option (Nat × List Char)
  | [], _, _, _ => none
  | c :: rest, position, weight, sum => do
    let d ← digit? c
    let t := threshold position bias
    if d < t then some (sum + d * weight, rest)
    else number? bias rest (position + 36) (weight * (36 - t)) (sum + d * weight)

/-- Reading a number takes at least one digit. -/
theorem number?_length {bias : Nat} {cs : List Char} {position weight sum n : Nat}
    {rest : List Char} (h : number? bias cs position weight sum = some (n, rest)) :
    rest.length < cs.length := by
  induction cs generalizing position weight sum with
  | nil => simp [number?] at h
  | cons c cs ih =>
    simp only [number?, Option.bind_eq_bind, Option.bind_eq_some_iff] at h
    obtain ⟨d, -, h⟩ := h
    split at h
    · cases h
      simp
    · exact Nat.lt_succ_of_lt (ih h)

/-- Inserts the characters that the rest of a label writes into those read so far: `last` is the
last character inserted and `place` the place after it. -/
def insertions? (bias last place : Nat) (read : List Char) : List Char → Option (List Char)
  | [] => some read
  | c :: rest =>
    match _ : number? bias (c :: rest) 36 1 place with
    | none => none
    | some (n, left) =>
      let count := read.length + 1
      let code := last + n / count
      if code.isValidChar then
        insertions? (adapt (n - place) count (place == 0)) code (n % count + 1)
          (read.insertIdx (n % count) (Char.ofNat code)) left
      else none
termination_by cs => cs.length
decreasing_by exact number?_length ‹_›

/-- The parts of a label before and after its last hyphen; without one all of it comes after. -/
def splitLast (cs : List Char) : List Char × List Char :=
  let after := (cs.reverse.takeWhile (· ≠ '-')).reverse
  ((cs.take (cs.length - after.length)).dropLast, after)

/-- The characters that a label writes. -/
def decode? (cs : List Char) : Option (List Char) :=
  let (plain, coded) := splitLast cs
  insertions? 72 128 0 plain coded

end BucketFs.Text.Punycode
