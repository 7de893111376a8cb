/-!
# A channel that forgets

Everything that is published on a broadcast channel is numbered. A reader
remembers how far it has read, and may read anything that is still kept; the
channel keeps a fixed number of the newest items. A reader that has fallen
behind is told how many items it has missed, once, and goes on at the oldest
that is kept.
-/

namespace Switchboard

/-- **A broadcast channel.** -/
structure Broadcast (α : Type) where
  /-- How many items are kept. -/
  capacity : Nat
  /-- Everything that was published, oldest first. -/
  published : Array α
deriving Repr

namespace Broadcast

variable {α : Type}

/-- A channel that keeps at least a number of items: the next power of two. -/
def empty (capacity : Nat) : Broadcast α := ⟨(max 1 capacity).nextPowerOfTwo, #[]⟩

/-- Publishes an item. -/
def publish (b : Broadcast α) (item : α) : Broadcast α :=
  { b with published := b.published.push item }

/-- The number of the oldest item that is kept. -/
def oldest (b : Broadcast α) : Nat := b.published.size - b.capacity

/-- **What a reader gets.** -/
inductive Received (α : Type) where
  /-- An item. -/
  | item (value : α)
  /-- The number of items that were missed. -/
  | lagged (missed : Nat)
  /-- Nothing new. -/
  | empty
deriving Repr

/-- **Reads once**, for a reader that has got as far as item number `seen`;
answers how far it is then. -/
def receive (b : Broadcast α) (seen : Nat) : Received α × Nat :=
  if seen < b.oldest then (.lagged (b.oldest - seen), b.oldest)
  else match b.published[seen]? with
    | some value => (.item value, seen + 1)
    | none => (.empty, seen)

/-- The items that a reader can still read. -/
def rest (b : Broadcast α) (seen : Nat) : List α :=
  (b.published.extract (max seen b.oldest) b.published.size).toList

/-- How many times a subscriber reads in a row before it gives way to others. -/
def burst : Nat := 128

/-- **Reads until nothing is left**, but at most a number of times; answers what
was read, without the notes on what was missed, and how far the reader is. -/
def drain (b : Broadcast α) : Nat → Nat → List α × Nat
  | 0, seen => ([], seen)
  | reads + 1, seen =>
    match b.receive seen with
    | (.item value, seen) =>
      let (more, seen) := drain b reads seen
      (value :: more, seen)
    | (.lagged _, seen) => drain b reads seen
    | (.empty, seen) => ([], seen)

end Broadcast

end Switchboard
