import Std.Data.HashMap
import TestSelection.Regex.Error
import TestSelection.Regex.Expr
import TestSelection.Regex.Program.ByteRange

/-!
# The size of a program

An expression is run as a program, a graph of states that read bytes. The program comes in two
versions, one that reads forwards and one that reads backwards, and neither may be too large. No
program is built here: its size is counted, state by state, and the count stops once it is over
the limit.

A state takes 32 bytes, and 4 or 8 more for every way that leads out of a state with several. The
states of a set of non-ASCII characters are shared where they do the same. To find a state that
was built before, a program keeps a table with a fixed number of slots. Where two states need one
slot the newer one stays, and the older is built again when it is needed again.
-/

namespace TestSelection.Regex.Program

/-! ## Counting -/

/-- What was built so far: the number of states, and the bytes beyond 32 for each. -/
structure Tally where
  states : Nat
  extra : Nat
deriving Repr

namespace Tally

def bytes (t : Tally) : Nat := 32 * t.states + t.extra

def tooLarge (t : Tally) : Bool := sizeLimit < t.bytes

/-- Add states that have one way out. -/
def add (n : Nat) (t : Tally) : Tally := { t with states := t.states + n }

/-- Add ways out of a state that chooses without reading. -/
def branch (n : Nat) (t : Tally) : Tally := { t with extra := t.extra + 4 * n }

/-- Add a state that reads a byte and has several ways out. -/
def read (n : Nat) (t : Tally) : Tally := ⟨t.states + 1, t.extra + 8 * n⟩

/-- Build something a number of times, or until the program is too large. -/
def times (build : Tally → Tally) : Nat → Tally → Tally
  | 0, t => t
  | n + 1, t => if t.tooLarge then t else times build n (build t)

end Tally

/-! ## Shared states -/

/-- A table of states by what they do, which is told by a list of numbers. -/
structure Slots where
  count : Nat
  entries : Std.HashMap Nat (List Nat × Nat)

namespace Slots

/-- An empty table. -/
def ofCount (count : Nat) : Slots := ⟨count, {}⟩

/-- The slot of a state. -/
def slot (s : Slots) (key : List Nat) : Nat :=
  let mix (h : UInt64) (n : Nat) : UInt64 := (h ^^^ n.toUInt64) * 1099511628211
  (key.foldl mix 14695981039346656037).toNat % s.count

/-- The number of a state, unless its slot holds another one. -/
def find? (s : Slots) (key : List Nat) : Option Nat :=
  match s.entries[s.slot key]? with
  | some (other, state) => if other = key then some state else none
  | none => none

/-- Keep a state. -/
def insert (s : Slots) (key : List Nat) (state : Nat) : Slots :=
  { s with entries := s.entries.insert (s.slot key) (key, state) }

end Slots

/-- A program in the making: the count, and the states that can be shared. -/
structure Build where
  tally : Tally
  slots : Slots

/-- Get a state, either one that is there or a new one. -/
def Build.state (b : Build) (key : List Nat) (make : Tally → Tally) : Nat × Build :=
  match b.slots.find? key with
  | some state => (state, b)
  | none => (b.tally.states, ⟨make b.tally, b.slots.insert key b.tally.states⟩)

/-! ## Sets of characters, forwards -/

/-- A state that is not finished: its ways out, as triples of two bytes and a state, and the byte
range of the last one, whose end is not known yet. -/
structure OpenState where
  ways : List Nat
  last : Option ByteRange

/-- The ways out of a state once the end of the last one is known. -/
def OpenState.finish (o : OpenState) (next : Nat) : List Nat :=
  match o.last with
  | some (lo, hi) => o.ways ++ [lo, hi, next]
  | none => o.ways

/-- Finish states of which each leads to the one after it, and the last one to a given state. -/
def closeStates (b : Build) (target : Nat) : List OpenState → Nat × Build
  | [] => (target, b)
  | o :: os =>
    let (next, b) := closeStates b target os
    let ways := o.finish next
    b.state ways (Tally.read (ways.length / 3))

/-- Add a sequence of byte ranges. Where it parts from the one before, the states of that one are
finished. -/
def addSequence (b : Build) (target : Nat) :
    List OpenState → List ByteRange → List OpenState × Build
  | [], rs => (rs.map fun r => ⟨[], some r⟩, b)
  | os, [] => (os, b)
  | o :: os, r :: rs =>
    if o.last = some r then
      let (os, b) := addSequence b target os rs
      (o :: os, b)
    else
      let (next, b) := closeStates b target os
      (⟨o.finish next, some r⟩ :: rs.map fun r => ⟨[], some r⟩, b)

/-- Count the states of a set. Sequences that end alike share the states of their ends. -/
def setForwards (seqs : List (List ByteRange)) (t : Tally) : Tally :=
  let target := t.states
  let start : List OpenState × Build := ([⟨[], none⟩], ⟨t.add 1, .ofCount 10000⟩)
  let (os, b) := seqs.foldl (fun (os, b) seq => addSequence b target os seq) start
  (closeStates b target os).2.tally

/-! ## Sets of characters, backwards -/

/-- Add a sequence, whose bytes are read last byte first. -/
def addBackwards (b : Build) (end' : Nat) (seq : List ByteRange) : Build :=
  let step (acc : Nat × Build) (r : ByteRange) : Nat × Build :=
    acc.2.state [acc.1, r.1, r.2] (Tally.add 1)
  let b := (seq.foldl step (end', b)).2
  { b with tally := b.tally.branch 1 }

/-- Count the states of a set that is read backwards. Sequences that begin alike share states. -/
def setBackwards (seqs : List (List ByteRange)) (t : Tally) : Tally :=
  let end' := t.states + 1
  (seqs.foldl (fun b seq => addBackwards b end' seq) ⟨t.add 2, .ofCount 1000⟩).tally

/-! ## Alternatives that are all texts -/

/-- Texts, by their first byte. Where a text ends in the middle of others, those that were added
before it are kept apart from those added after it. -/
inductive Trie where
  | node (earlier : List (List (Nat × Trie))) (active : List (Nat × Trie))

namespace Trie

def empty : Trie := .node [] []

/-- Whether no text goes on from here. -/
def isLeaf : Trie → Bool
  | .node earlier active => earlier.all List.isEmpty && active.isEmpty

/-- Add a text. -/
def insert : List Nat → Trie → Trie
  | [], .node earlier active =>
    if (Trie.node earlier active).isLeaf && !earlier.isEmpty then .node earlier active
    else .node (earlier ++ [active]) []
  | b :: bs, .node earlier active =>
    match active.lookup b with
    | some child =>
      let child := insert bs child
      .node earlier (active.map fun (c, t) => if c = b then (c, child) else (c, t))
    | none => .node earlier ((b, insert bs empty) :: active)

/-- Count the state that reads the first bytes of one group of texts. -/
def chunk (ways : Nat) (t : Tally) : Tally :=
  if ways = 0 then t else (if ways = 1 then t.add 1 else t.read ways).branch 1

mutual

/-- Count the states of a set of texts. -/
def tally : Trie → Tally → Tally
  | .node earlier active, t =>
    if (Trie.node earlier active).isLeaf then t
    else
      let t := tallyChunks earlier (tallyWays active t)
      (chunk active.length (t.branch earlier.length)).add 1

/-- Count the states below groups of texts, and the states that read their first bytes. -/
def tallyChunks : List (List (Nat × Trie)) → Tally → Tally
  | [], t => t
  | c :: cs, t => tallyChunks cs (chunk c.length (tallyWays c t))

/-- Count the states below a group of texts. -/
def tallyWays : List (Nat × Trie) → Tally → Tally
  | [], t => t
  | (_, x) :: xs, t => tallyWays xs (tally x t)

end

end Trie

/-! ## Expressions -/

/-- The bytes of a text in UTF-8. -/
def textBytes (chars : List Char) : List Nat := chars.flatMap fun c => utf8Bytes c.toNat

/-- The texts of alternatives that are all texts. -/
def textsOf? (branches : List Expr) : Option (List (List Char)) :=
  branches.mapM fun
    | .text chars => some chars
    | _ => none

mutual

/-- Count the states of an expression. Only programs that read forwards keep track of groups. -/
def tally (forwards : Bool) : Expr → Tally → Tally
  | .empty, t => t.add 1
  | .text chars, t => t.add (textBytes chars).length
  | .set _ s, t =>
    if s.isAscii then (t.add 1).read s.ranges.length
    else
      let seqs := s.ranges.flatMap sequences
      if forwards then setForwards seqs t else setBackwards seqs t
  | .look _, t => t.add 1
  | .repetition least none _ sub, t =>
    if least = 0 then
      if (sub.minLength?).any (0 < ·) then (tally forwards sub (t.add 1)).branch 2
      else ((tally forwards sub t).add 3).branch 4
    else ((Tally.times (tally forwards sub) least t).add 1).branch 2
  | .repetition least (some greatest) _ sub, t =>
    if least = 0 ∧ greatest = 1 then ((tally forwards sub (t.add 1)).add 1).branch 2
    else
      let t := if least = 0 then t.add 1 else Tally.times (tally forwards sub) least t
      if least = greatest then t
      else
        let option (t : Tally) := (tally forwards sub (t.add 1)).branch 2
        Tally.times option (greatest - least) (t.add 1)
  | .capture _ _ sub, t =>
    if forwards then (tally forwards sub (t.add 1)).add 1 else tally forwards sub t
  | .concat parts, t => if forwards then tallyEach forwards parts t else tallyReversed parts t
  | .alternation branches, t =>
    match textsOf? branches with
    | some texts =>
      let add (x : Trie) (chars : List Char) :=
        let bytes := textBytes chars
        x.insert (if forwards then bytes else bytes.reverse)
      (texts.foldl add .empty).tally (t.add 1)
    | none => ((tallyBranches forwards 2 branches t)).branch branches.length

/-- Count the states of expressions, one after the other. -/
def tallyEach (forwards : Bool) : List Expr → Tally → Tally
  | [], t => t
  | x :: xs, t => tallyEach forwards xs (tally forwards x t)

/-- Count the states of expressions that are read backwards, the last one first. -/
def tallyReversed : List Expr → Tally → Tally
  | [], t => t
  | x :: xs, t => tally false x (tallyReversed xs t)

/-- Count the states of branches; after the second one come the two states that join them. -/
def tallyBranches (forwards : Bool) : Nat → List Expr → Tally → Tally
  | _, [], t => t
  | 0, x :: xs, t => tallyBranches forwards 0 xs (tally forwards x t)
  | 1, x :: xs, t => tallyBranches forwards 0 xs ((tally forwards x t).add 2)
  | n + 1, x :: xs, t => tallyBranches forwards n xs (tally forwards x t)

end

/-- Count the states of the program of an expression: it starts with one state and ends with
another, and a program that reads forwards marks the start and the end of the match. -/
def ofExpr (forwards : Bool) (x : Expr) : Tally :=
  if forwards then (tally forwards x ⟨2, 0⟩).add 2 else (tally forwards x ⟨1, 0⟩).add 1

/-- Whether one of the programs of an expression is too large. -/
def tooLarge (x : Expr) : Bool := (ofExpr true x).tooLarge || (ofExpr false x).tooLarge

end TestSelection.Regex.Program
