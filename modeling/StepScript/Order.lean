/-!
Orders in which every producer stands before its consumers.

A relation `feeds` on the positions below `n` says which position has to stand before which. If it has
a cycle, the positions stay in their given order. Otherwise an agenda keeps, for each position, how
many of its producers are not placed yet, and the positions that wait for none. Placing always takes
the least ready position and counts it off at its consumers.
-/

namespace StepScript

/-- What is left to place. -/
structure Agenda (n : Nat) where
  /-- How many producers of each position are not placed. -/
  pending : Vector Nat n
  /-- The positions that wait for no producer, ascending. -/
  ready : List (Fin n)

/-- The positions in the order to take them, and whether the relation has a cycle. -/
structure Plan (n : Nat) where
  order : List (Fin n)
  cyclic : Bool
  deriving DecidableEq

namespace Agenda

variable {n : Nat}

def consumers (feeds : Fin n → Fin n → Bool) (i : Fin n) : List (Fin n) :=
  (List.finRange n).filter (feeds i ·)

def producers (feeds : Fin n → Fin n → Bool) (j : Fin n) : List (Fin n) :=
  (List.finRange n).filter (feeds · j)

/-- An ascending list with a position put in its place. -/
def insertAscending (i : Fin n) : List (Fin n) → List (Fin n)
  | [] => [i]
  | j :: js => if i ≤ j then i :: j :: js else j :: insertAscending i js

def start (feeds : Fin n → Fin n → Bool) : Agenda n where
  pending := Vector.ofFn fun j => (producers feeds j).length
  ready := (List.finRange n).filter fun j => (producers feeds j).isEmpty

/-- One producer of a position is counted off; with the last one the position becomes ready. -/
def countOff (a : Agenda n) (j : Fin n) : Agenda n :=
  let left := a.pending.get j - 1
  { pending := a.pending.set j left
    ready := if left = 0 then insertAscending j a.ready else a.ready }

def place (feeds : Fin n → Fin n → Bool) (a : Agenda n) (i : Fin n) : Agenda n :=
  (consumers feeds i).foldl countOff { a with ready := a.ready.erase i }

/-- The positions placed in at most `steps` steps, the least ready one each time. -/
def run (feeds : Fin n → Fin n → Bool) : (steps : Nat) → Agenda n → List (Fin n)
  | 0, _ => []
  | steps + 1, a =>
    match a.ready with
    | [] => []
    | i :: _ => i :: run feeds steps (a.place feeds i)

end Agenda

/-- The positions of a list that are fed from within the list. -/
def fedWithin {n : Nat} (feeds : Fin n → Fin n → Bool) (is : List (Fin n)) : List (Fin n) :=
  is.filter fun j => is.any (feeds · j)

/-- What a list of positions shrinks to when those not fed from within it are taken away, round by
round. -/
def core {n : Nat} (feeds : Fin n → Fin n → Bool) : (rounds : Nat) → List (Fin n) → List (Fin n)
  | 0, is => is
  | rounds + 1, is => core feeds rounds (fedWithin feeds is)

/-- Whether positions feed one another in a cycle: some remain after as many rounds as there are
positions. -/
def hasCycle {n : Nat} (feeds : Fin n → Fin n → Bool) : Bool :=
  !(core feeds n (List.finRange n)).isEmpty

/-- The least order of positions with every producer before its consumers, unless there is a cycle,
and then the given order. -/
def Plan.ofRelation {n : Nat} (feeds : Fin n → Fin n → Bool) : Plan n :=
  if hasCycle feeds then ⟨List.finRange n, true⟩
  else ⟨Agenda.run feeds n (Agenda.start feeds), false⟩

end StepScript
