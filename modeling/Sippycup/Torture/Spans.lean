import Mathlib.Data.List.Sort

/-! Spans of a wire message that a reduction may delete: the body, header lines,
body lines and header values. Deleting spans leaves a subsequence. -/
namespace Sippycup.Torture

abbrev Bytes := List UInt8

/-- The first of `count` positions from `cursor` where the pattern occurs. -/
def findFrom (data pattern : Bytes) : Nat → Nat → Option Nat
  | 0, _ => none
  | count + 1, cursor =>
    if pattern.isPrefixOf (data.drop cursor) then some cursor
    else findFrom data pattern count (cursor + 1)

/-- `data.find(pattern, start, stop)`, for a `stop` within the data. -/
def find (data pattern : Bytes) (start stop : Nat) : Option Nat :=
  findFrom data pattern (stop + 1 - (start + pattern.length)) start

theorem findFrom_ge {data pattern : Bytes} {count cursor found : Nat}
    (here : findFrom data pattern count cursor = some found) : cursor ≤ found := by
  induction count generalizing cursor with
  | zero => cases here
  | succ count ih =>
    rw [findFrom] at here
    split at here
    · exact (Option.some.inj here).le
    · exact (Nat.le_succ cursor).trans (ih here)

def newline : UInt8 := 10

def lineEnd (data : Bytes) (cursor stop : Nat) : Nat :=
  match find data [newline] cursor stop with
  | none => stop
  | some found => found + 1

theorem lt_lineEnd {data : Bytes} {cursor stop : Nat} (inside : cursor < stop) :
    cursor < lineEnd data cursor stop := by
  unfold lineEnd
  split
  · exact inside
  · rename_i found here
    exact Nat.lt_succ_of_le (findFrom_ge here)

def lineSpans (data : Bytes) (cursor stop : Nat) : List (Nat × Nat) :=
  if cursor < stop then
    (cursor, lineEnd data cursor stop) :: lineSpans data (lineEnd data cursor stop) stop
  else []
termination_by stop - cursor
decreasing_by
  rename_i inside
  have : cursor < lineEnd data cursor stop := lt_lineEnd inside
  omega

inductive Level
  | sections
  | headers
  | bodyLines
  | values
  deriving DecidableEq

def Level.name : Level → String
  | sections => "sections"
  | headers => "headers"
  | bodyLines => "body-lines"
  | values => "values"

def bodyStart (data : Bytes) : Nat :=
  match find data [13, 10, 13, 10] 0 data.length with
  | some separator => separator + 4
  | none =>
    match find data [10, 10] 0 data.length with
    | some separator => separator + 2
    | none => data.length

/-- The bytes skipped before a value, and those that end one. -/
def separators : Bytes := [32, 9, 59, 44, 61]

def terminators : Bytes := [32, 9, 59, 44, 61, 13, 10]

/-- The first position from `cursor`, before `stop`, whose byte fails the test. -/
def advance (p : UInt8 → Bool) (data : Bytes) (cursor stop : Nat) : Nat :=
  cursor + (((data.drop cursor).take (stop - cursor)).takeWhile p).length

def valueSpans (data : Bytes) (cursor stop : Nat) : List (Nat × Nat) :=
  if cursor < stop then
    let start := advance (· ∈ separators) data cursor stop
    let tokenEnd := advance (· ∉ terminators) data start stop
    let rest := valueSpans data (tokenEnd + 1) stop
    if start < tokenEnd then (start, tokenEnd) :: rest else rest
  else []
termination_by stop - cursor
decreasing_by
  rename_i inside
  unfold advance
  omega

def spans (data : Bytes) (level : Level) : List (Nat × Nat) :=
  let body := bodyStart data
  match level with
  | .sections => if body < data.length then [(body, data.length)] else []
  | .headers => (lineSpans data 0 body).tail
  | .bodyLines => lineSpans data body data.length
  | .values => (lineSpans data 0 body).flatMap fun (start, stop) =>
      match find data [58] start stop with
      | none => []
      | some colon => valueSpans data (colon + 1) stop

def spanLe (a b : Nat × Nat) : Bool := a.1 < b.1 || a.1 = b.1 && a.2 ≤ b.2

/-- `del removed[start:stop]` -/
def eraseSpan (data : Bytes) (span : Nat × Nat) : Bytes :=
  data.take span.1 ++ data.drop (max span.1 span.2)

/-- The spans are deleted from the last to the first. -/
def deleteSpans (data : Bytes) (spans : List (Nat × Nat)) : Bytes :=
  (spans.insertionSort fun a b => spanLe b a = true).foldl eraseSpan data

theorem eraseSpan_sublist (data : Bytes) (span : Nat × Nat) : (eraseSpan data span).Sublist data := by
  have later : (data.drop (max span.1 span.2)).Sublist (data.drop span.1) := by
    have split : max span.1 span.2 = span.1 + (max span.1 span.2 - span.1) := by omega
    rw [split, ← List.drop_drop]
    exact List.drop_sublist _ _
  have joined := (List.Sublist.refl (data.take span.1)).append later
  rwa [List.take_append_drop] at joined

theorem foldl_eraseSpan_sublist (spans : List (Nat × Nat)) (data : Bytes) :
    (spans.foldl eraseSpan data).Sublist data := by
  induction spans generalizing data with
  | nil => exact List.Sublist.refl data
  | cons span rest ih => exact (ih _).trans (eraseSpan_sublist data span)

theorem deleteSpans_sublist (data : Bytes) (spans : List (Nat × Nat)) :
    (deleteSpans data spans).Sublist data := foldl_eraseSpan_sublist _ data

/-- A deletion that changes the data shortens it. -/
theorem deleteSpans_shorter {data : Bytes} {spans : List (Nat × Nat)}
    (changed : deleteSpans data spans ≠ data) : (deleteSpans data spans).length < data.length := by
  have sublist := deleteSpans_sublist data spans
  refine lt_of_le_of_ne sublist.length_le fun same => changed ?_
  exact sublist.eq_of_length same

end Sippycup.Torture
