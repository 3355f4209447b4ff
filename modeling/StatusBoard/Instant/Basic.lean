import StatusBoard.Instant.Date
set_option autoImplicit false

/-!
# Instant: points in universal time

An `Instant` is a date, a second of that day and a count of nanoseconds.  A leap second is the second
before it with a billion nanoseconds more, so it sorts after every other instant of its minute.  Instants
are ordered by `rank`, a single integer that is strictly monotone in the fields from left to right.
-/

namespace StatusBoard

/-- A point in universal time, to the nanosecond. -/
structure Instant where
  date : Date
  second : Nat
  nano : Nat
  second_lt : second < 86400
  nano_lt : nano < 2000000000
  leap : 1000000000 ≤ nano → second % 60 = 59
  deriving DecidableEq, Repr

namespace Instant

instance : Inhabited Instant :=
  ⟨⟨default, 0, 0, by decide, by decide, by decide⟩⟩

/-- The instant with these fields, if there is one. -/
def of? (date : Date) (second nano : Nat) : Option Instant :=
  if h : second < 86400 ∧ nano < 2000000000 ∧ (1000000000 ≤ nano → second % 60 = 59) then
    some ⟨date, second, nano, h.1, h.2.1, h.2.2⟩
  else none

@[simp] theorem of?_self (t : Instant) : of? t.date t.second t.nano = some t := by
  have h : t.second < 86400 ∧ t.nano < 2000000000 ∧ (1000000000 ≤ t.nano → t.second % 60 = 59) :=
    ⟨t.second_lt, t.nano_lt, t.leap⟩
  simp only [of?, dif_pos h]

/-! ## Order -/

/-- The position of an instant on a line; equal ranks mean equal instants. -/
def rank (t : Instant) : Int :=
  (((t.date.year * 13 + t.date.month) * 32 + t.date.day) * 86400 + t.second) * 2000000000 + t.nano

instance : LE Instant := ⟨fun a b => a.rank ≤ b.rank⟩
instance : LT Instant := ⟨fun a b => a.rank < b.rank⟩
instance (a b : Instant) : Decidable (a ≤ b) := inferInstanceAs (Decidable (a.rank ≤ b.rank))
instance (a b : Instant) : Decidable (a < b) := inferInstanceAs (Decidable (a.rank < b.rank))

/-- The later of two instants. -/
def latest (a b : Instant) : Instant :=
  if a ≤ b then b else a

/-! ## Arithmetic -/

/-- The universal time of a local one that is ahead by an offset in minutes. -/
def ofLocal? (date : Date) (second nano : Nat) (offset : Int) : Option Instant := do
  let shifted : Int := second - offset * 60
  if shifted < 0 then of? (← date.previous?) (shifted + 86400).toNat nano
  else if shifted < 86400 then of? date shifted.toNat nano
  else of? (← date.next?) (shifted - 86400).toNat nano

/-- The instant without what is finer than a microsecond. -/
def truncateMicros (t : Instant) : Instant where
  date := t.date
  second := t.second
  nano := t.nano - t.nano % 1000
  second_lt := t.second_lt
  nano_lt := Nat.lt_of_le_of_lt (Nat.sub_le ..) t.nano_lt
  leap h := t.leap (Nat.le_trans h (Nat.sub_le ..))

/-- The instant a number of nanoseconds later.  A step that leaves a leap second counts the second before
it once. -/
def advance? (t : Instant) (nanos : Int) : Option Instant :=
  let seconds := nanos.tdiv 1000000000
  let rest := nanos.tmod 1000000000
  if 1000000000 ≤ t.nano && !(0 < seconds || (0 < rest && 2000000000 ≤ t.nano + rest)) &&
      !(seconds < 0) then
    of? t.date t.second (t.nano + rest).toNat
  else
    let (second, nano) : Int × Int :=
      if t.nano < 1000000000 then (t.second, t.nano)
      else if 0 < seconds || 0 < rest then (t.second, t.nano - 1000000000)
      else (t.second + 1, t.nano - 1000000000)
    let total := (second + seconds) * 1000000000 + nano + rest
    let whole := total / 1000000000
    (t.date.addDays? (whole / 86400)).bind fun date =>
      of? date (whole % 86400).toNat (total % 1000000000).toNat

end Instant
end StatusBoard
