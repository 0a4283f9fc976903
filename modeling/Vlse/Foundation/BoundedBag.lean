import Mathlib.Algebra.Order.Group.Multiset
import Vlse.Foundation.Component
/-!
# Bounded bags

A bag holds payloads under homes; a key has one home at most, and several keys may share one. The
bag has room for so many entries in all and for so many under each home. It may refuse an entry
only when it holds as many as the home has room for, or as many as it can hold. Filling it adds
entries of the caller's making up to the capacity and closes it; an interrupted filling leaves it
as it is. This says what a filter is for without buckets, fingerprints and evictions.
-/

namespace Vlse

/-- How keys find their homes, how much a bag holds, and what its calls throw. -/
structure BagShape (Key Home Tag X : Type*) where
  /-- The home of a key, if it has one. -/
  home : Key → Option Home
  /-- What a caller that fills the bag chooses of a home. -/
  tag : Home → Tag
  /-- The entries there is room for under a home. -/
  room : Home → Nat
  /-- The entries there is room for. -/
  capacity : Nat
  /-- Thrown for an entry offered to a closed bag. -/
  insertClosed : X
  /-- Thrown for filling a closed bag. -/
  fillClosed : X
  /-- The fault of a key without a home. -/
  homeless : X

/-- A bag. -/
structure Bag (Home P : Type*) where
  /-- The payloads with their homes. -/
  held : Multiset (Home × P)
  /-- No more entries are taken. -/
  closed : Bool

/-- The calls of a bag. -/
inductive BagCall (Key P : Type*) where
  /-- Add a payload under the home of a key. -/
  | insert (key : Key) (payload : P)
  /-- List the payloads under the home of a key. -/
  | queryAll (key : Key)
  /-- Ask whether there are any. -/
  | contains (key : Key)
  /-- Count the entries. -/
  | size
  /-- Fill the bag. -/
  | fill

/-- Their answers. -/
inductive BagAnswer (Tag P X : Type*) where
  /-- Whether the payload was added. -/
  | inserted (accepted : Bool)
  /-- The payloads, in some order. -/
  | payloads (answer : List P)
  /-- Whether there are any. -/
  | found (answer : Bool)
  /-- The number of entries. -/
  | counted (size : Nat)
  /-- The bag was filled with these. -/
  | filled (drawn : List (Tag × P))
  /-- The caller's part of a filling threw. -/
  | interrupted
  /-- The call failed. -/
  | threw (fault : X)

variable {Key Home Tag P X : Type*}

namespace Bag

/-- The empty bag. -/
def empty : Bag Home P := ⟨0, false⟩

variable [DecidableEq Home]

/-- The payloads under a home. -/
def under (bag : Bag Home P) (home : Home) : Multiset P :=
  (bag.held.filter fun entry => entry.1 = home).map Prod.snd

/-- The bag with another entry. -/
def insert (bag : Bag Home P) (home : Home) (payload : P) : Bag Home P :=
  { bag with held := (home, payload) ::ₘ bag.held }

/-- The bag filled with some entries. -/
def fill (bag : Bag Home P) (added : Multiset (Home × P)) : Bag Home P :=
  ⟨added + bag.held, true⟩

/-- Another entry stands under its own home. -/
theorem under_insert_same (bag : Bag Home P) (home : Home) (payload : P) :
    (bag.insert home payload).under home = payload ::ₘ bag.under home := by
  simp [under, insert]

/-- It does not stand under another. -/
theorem under_insert_apart (bag : Bag Home P) {home other : Home} (apart : home ≠ other)
    (payload : P) : (bag.insert home payload).under other = bag.under other := by
  simp [under, insert, apart]

end Bag

namespace BagShape

variable [DecidableEq Home] (shape : BagShape Key Home Tag X)

/-- What a call of a bag may do. -/
inductive Step : Bag Home P → BagCall Key P → BagAnswer Tag P X → Bag Home P → Prop
  /-- The payload is added. -/
  | inserted {bag : Bag Home P} {key : Key} {home : Home} (payload : P)
    (opened : bag.closed = false) (found : shape.home key = some home)
    (below : bag.held.card < shape.capacity) (room : (bag.under home).card < shape.room home) :
    Step bag (.insert key payload) (.inserted true) (bag.insert home payload)
  /-- It is refused by a bag that is full. -/
  | full {bag : Bag Home P} (key : Key) (payload : P) (opened : bag.closed = false)
    (taken : shape.capacity ≤ bag.held.card) :
    Step bag (.insert key payload) (.inserted false) bag
  /-- It is refused by a bag with as many entries as its home has room for. -/
  | crowded {bag : Bag Home P} {key : Key} {home : Home} (payload : P)
    (opened : bag.closed = false) (found : shape.home key = some home)
    (taken : shape.room home ≤ bag.held.card) :
    Step bag (.insert key payload) (.inserted false) bag
  /-- A closed bag takes nothing. -/
  | insertClosed {bag : Bag Home P} (key : Key) (payload : P) (closed : bag.closed = true) :
    Step bag (.insert key payload) (.threw shape.insertClosed) bag
  /-- The key has no home. -/
  | insertHomeless {bag : Bag Home P} {key : Key} (payload : P) (opened : bag.closed = false)
    (lost : shape.home key = none) : Step bag (.insert key payload) (.threw shape.homeless) bag
  /-- The payloads under the home are listed. -/
  | queried {bag : Bag Home P} {key : Key} {home : Home} {answer : List P}
    (found : shape.home key = some home) (listed : (answer : Multiset P) = bag.under home) :
    Step bag (.queryAll key) (.payloads answer) bag
  /-- The key has no home. -/
  | queryHomeless (bag : Bag Home P) {key : Key} (lost : shape.home key = none) :
    Step bag (.queryAll key) (.threw shape.homeless) bag
  /-- The payloads under the home are looked for. -/
  | contained (bag : Bag Home P) {key : Key} {home : Home} (found : shape.home key = some home) :
    Step bag (.contains key) (.found (decide ((bag.under home).card ≠ 0))) bag
  /-- The key has no home. -/
  | containsHomeless (bag : Bag Home P) {key : Key} (lost : shape.home key = none) :
    Step bag (.contains key) (.threw shape.homeless) bag
  /-- The entries are counted. -/
  | counted (bag : Bag Home P) : Step bag .size (.counted bag.held.card) bag
  /-- The bag is filled with entries that have the tags asked for. -/
  | filled {bag : Bag Home P} {added : Multiset (Home × P)} {drawn : List (Tag × P)}
    (opened : bag.closed = false)
    (tagged : added.map (fun entry => (shape.tag entry.1, entry.2)) = drawn)
    (total : (bag.fill added).held.card = shape.capacity)
    (room : ∀ home, ((bag.fill added).under home).card ≤ shape.room home) :
    Step bag .fill (.filled drawn) (bag.fill added)
  /-- The filling is interrupted. -/
  | interrupted {bag : Bag Home P} (opened : bag.closed = false) : Step bag .fill .interrupted bag
  /-- A closed bag is not filled again. -/
  | fillClosed {bag : Bag Home P} (closed : bag.closed = true) :
    Step bag .fill (.threw shape.fillClosed) bag

/-- The bag as a component. -/
def component : Component (Bag Home P) (BagCall Key P) (BagAnswer Tag P X) where
  step := shape.Step

/-! ## What runs keep -/

/-- The bounds of a bag. -/
structure Bounded (bag : Bag Home P) : Prop where
  /-- It holds what there is room for. -/
  capacity : bag.held.card ≤ shape.capacity
  /-- So it does under each home. -/
  room : ∀ home, (bag.under home).card ≤ shape.room home
  /-- A closed bag is full. -/
  full : bag.closed = true → bag.held.card = shape.capacity

variable {shape} {bag after : Bag Home P} {call : BagCall Key P} {answer : BagAnswer Tag P X}

/-- A call keeps the bounds. -/
theorem Bounded.step (bounded : shape.Bounded bag) (stepped : shape.Step bag call answer after) :
    shape.Bounded after := by
  cases stepped with
  | @inserted _ home payload opened found below room =>
    refine ⟨?_, fun other => ?_, fun closed => ?_⟩
    · rw [Bag.insert, Multiset.card_cons]
      exact below
    · by_cases same : home = other
      · rw [← same, Bag.under_insert_same, Multiset.card_cons]
        exact room
      · rw [Bag.under_insert_apart _ same]
        exact bounded.room other
    · have still : bag.closed = true := closed
      rw [opened] at still
      contradiction
  | filled opened tagged total room => exact ⟨total.le, room, fun _ => total⟩
  | full | crowded | insertClosed | insertHomeless | queried | queryHomeless | contained
  | containsHomeless | counted | interrupted | fillClosed => exact bounded

/-- A call takes no entry out. -/
theorem Step.grows (stepped : shape.Step bag call answer after) : bag.held ≤ after.held := by
  cases stepped with
  | inserted => exact Multiset.le_cons_self _ _
  | filled => exact Multiset.le_add_left _ _
  | full | crowded | insertClosed | insertHomeless | queried | queryHomeless | contained
  | containsHomeless | counted | interrupted | fillClosed => exact le_refl _

/-- A run keeps the bounds. -/
theorem Bounded.run {log : List (BagCall Key P × BagAnswer Tag P X)}
    (run : shape.component.Run bag log after) (bounded : shape.Bounded bag) :
    shape.Bounded after :=
  run.keeps (fun holds stepped => holds.step stepped) bounded

/-- A run takes no entry out. -/
theorem held_le_of_run {log : List (BagCall Key P × BagAnswer Tag P X)}
    (run : shape.component.Run bag log after) : bag.held ≤ after.held := by
  have step : ∀ {state next : Bag Home P} {call : BagCall Key P} {answer : BagAnswer Tag P X},
      bag.held ≤ state.held → shape.component.step state call answer next →
        bag.held ≤ next.held :=
    fun holds stepped => holds.trans (Step.grows stepped)
  exact run.keeps step (le_refl bag.held)

end BagShape

end Vlse
