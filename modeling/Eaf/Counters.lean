import Eaf.Notice

/-!
# Counters for new ids

A document keeps one counter per family of ids: the number that the next new id will carry. The
counters are 64-bit words. A new id takes the first free number at or after the counter, and a
search that passes the largest word goes on at zero.

## Main definitions

* `Eaf.firstFree` — the first word of a cyclic run that is not taken.
* `Eaf.Counters` — one counter per family.
* `Eaf.Counters.mint?` — a new id, with the counters after it.
* `Eaf.Counters.raise`, `Eaf.Counters.observe` — keeping a counter ahead of ids in use.
-/

namespace Eaf

/-- The first word that is not taken among the `count` words from `start` on, counted modulo the
number of words. -/
def firstFree (taken : UInt64 → Bool) : (count : Nat) → (start : UInt64) → Option UInt64
  | 0, _ => none
  | count + 1, start => if taken start then firstFree taken count (start + 1) else some start

/-- The numbers that the next new ids will carry, one per family. -/
structure Counters where
  tier : UInt64 := 0
  note : UInt64 := 0
  timeSlot : UInt64 := 0
  deriving DecidableEq, Repr, Inhabited

/-- A new id, with the counters after it and what is to be noticed about it. -/
structure Mint where
  id : String
  counters : Counters
  notices : List Notice
  deriving DecidableEq, Repr

namespace Counters

/-- The counter of a family. -/
def get (counters : Counters) : IdFamily → UInt64
  | .tier => counters.tier
  | .note => counters.note
  | .timeSlot => counters.timeSlot

/-- The counters with that of one family changed. -/
def set (counters : Counters) (value : UInt64) : IdFamily → Counters
  | .tier => { counters with tier := value }
  | .note => { counters with note := value }
  | .timeSlot => { counters with timeSlot := value }

/-- The first numbered id at or after the counter that is not taken, in cyclic order. The counter
moves to the number after it. There is none if every numbered id of the family is taken, one for
every word. -/
def mint? (counters : Counters) (family : IdFamily) (taken : String → Bool) : Option Mint :=
  let start := counters.get family
  (firstFree (fun n => taken (family.number n)) UInt64.size start).map fun n =>
    { id := family.number n
      counters := counters.set (n + 1) family
      -- The search or the step after it passed the largest word exactly if the counter fell.
      notices := if n + 1 ≤ start then [.counterRestarted family] else [] }

/-- The counters with that of one family at least as large as a given word. -/
def raise (counters : Counters) (family : IdFamily) (value : UInt64) : Counters :=
  if counters.get family < value then counters.set value family else counters

/-- The word after a given one; the largest word has itself as its successor. -/
def successor (n : UInt64) : UInt64 :=
  if n + 1 = 0 then n else n + 1

/-- The counters, moved past an id if it is numbered. -/
def observe (counters : Counters) (id : String) : Counters :=
  match IdFamily.numbered? id with
  | some (family, n) => counters.raise family (successor n)
  | none => counters

/-- The counters, moved past every numbered id of a list. -/
def observeAll (counters : Counters) (ids : List String) : Counters :=
  ids.foldl observe counters

/-! ### Reading a counter back -/

variable (counters : Counters) (family other : IdFamily) (value : UInt64)

@[simp] theorem get_set_self : (counters.set value family).get family = value := by
  cases family <;> rfl

theorem get_set_of_ne (h : other ≠ family) :
    (counters.set value family).get other = counters.get other := by
  cases family <;> cases other <;> first | rfl | exact absurd rfl h

theorem le_get_raise : value ≤ (counters.raise family value).get family := by
  unfold raise
  split
  · simp
  · rename_i h
    exact UInt64.not_lt.1 h

end Counters

end Eaf
