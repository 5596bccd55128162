import Diameter.Lib.Bytes
import Mathlib.Logic.Relation

/-!
# Reader.Ordered

`orderedReader`: a goroutine copies a source into pooled buffers and hands each over on an
unbuffered channel, and `Read` cuts what it got to the size of the consumer's own buffers.

The buffers are memory that can be written over. An event is a slice of one, and `Read` copies from
the buffer at the time it is called, so that a buffer that went back to the pool too early would
show in what `Read` returns: the rest of the program may take any buffer from the pool, write to it
and put it back.

Any number of octets may wait in the source, in the copier's hand and with the consumer; the steps
below are what either side does between two synchronisations.
-/

namespace Diameter.Reader

open Lib

/-- The length of the arrays in `restartReadBuffers`. -/
def bufferSize : Nat := 32 * 1024

/-- An error of the source; `restart` for a `TransportRestartError`, after which it goes on. -/
structure SourceError where
  restart : Bool
  text : String
deriving DecidableEq, Repr

/-- What one call of the source's `Read` gives. -/
structure Chunk where
  data : Bytes
  err : Option SourceError
  fits : data.length ≤ bufferSize

/-- Nothing comes after the chunk. -/
def Chunk.terminal (c : Chunk) : Bool := c.err.any fun e => !e.restart

/-- `n > 0 || err != nil`. -/
def Chunk.sent (c : Chunk) : Bool := !c.data.isEmpty || c.err.isSome

/-- The data is `len` octets of the buffer, from `off` on. -/
structure RestartReadEvent where
  buffer : Option Nat := none
  off : Nat := 0
  len : Nat := 0
  err : Option SourceError := none

inductive Owner where
  | pool
  | copier
  | consumer
  | foreign
deriving DecidableEq, Repr

/-- Where `copy` is. -/
inductive Copier where
  | start
  | reading (b : Nat)
  /-- In the `select`. -/
  | sending (ev : RestartReadEvent)
  | stopped

/-- Where `Read` is. -/
inductive Consumer where
  | idle
  /-- In the `select`. -/
  | waiting (size : Nat)
  | copying (size : Nat)

inductive ReadError where
  | closed
  | source (e : SourceError)
deriving DecidableEq, Repr

structure ReadResult where
  data : Bytes
  err : Option ReadError

structure State where
  /-- What the source will still give. -/
  source : List Chunk
  /-- What it gave. -/
  taken : List Chunk := []
  memory : Nat → Bytes := fun _ => List.replicate bufferSize 0
  owner : Nat → Owner := fun _ => .pool
  /-- How often the reader took the buffer from the pool, and put it back. -/
  gets : Nat → Nat := fun _ => 0
  puts : Nat → Nat := fun _ => 0
  /-- How many octets the source had given when the last one in the buffer came, 0 if the buffer
  got none since it was taken from the pool. -/
  filled : Nat → Nat := fun _ => 0
  closed : Bool := false
  gone : Bool := false
  pending : RestartReadEvent := {}
  copier : Copier := .start
  consumer : Consumer := .idle
  /-- What the calls of `Read` returned. -/
  results : List ReadResult := []

def bytesOf (cs : List Chunk) : Bytes := cs.flatMap Chunk.data

namespace State

def returned (s : State) : Bytes := s.results.flatMap ReadResult.data

def slice (s : State) (ev : RestartReadEvent) : Bytes :=
  (((ev.buffer.map s.memory).getD []).drop ev.off).take ev.len

def acquire (s : State) (b : Nat) : State :=
  { s with
    owner := Function.update s.owner b .copier
    gets := Function.update s.gets b (s.gets b + 1)
    filled := Function.update s.filled b 0 }

def releaseReadBuffer (s : State) (b : Nat) : State :=
  { s with
    owner := Function.update s.owner b .pool
    puts := Function.update s.puts b (s.puts b + 1) }

/-- The source fills buffer `b`. -/
def fill (s : State) (b : Nat) (c : Chunk) (rest : List Chunk) : State :=
  { s with
    source := rest
    taken := s.taken ++ [c]
    memory := Function.update s.memory b (c.data ++ (s.memory b).drop c.data.length)
    filled := Function.update s.filled b
      (if c.data = [] then s.filled b else (bytesOf (s.taken ++ [c])).length)
    gone := s.gone || c.terminal }

/-- `copy` from the source's `Read` to its own `select`. -/
def copyFrom (s : State) (b : Nat) (c : Chunk) (rest : List Chunk) : State :=
  let s := s.fill b c rest
  if c.sent then { s with copier := .sending ⟨some b, 0, c.data.length, c.err⟩ }
  else { s.releaseReadBuffer b with copier := .start }

/-- `copy` after its event was taken. -/
def afterSend (ev : RestartReadEvent) : Copier :=
  if ev.err.any fun e => !e.restart then .stopped else .start

/-- `Read` from its `copy` to its end. -/
def copyOut (s : State) (size : Nat) : State :=
  let n := min size s.pending.len
  let data := (s.slice s.pending).take n
  let pending : RestartReadEvent :=
    { s.pending with off := s.pending.off + n, len := s.pending.len - n }
  if pending.len > 0 then
    { s with
      pending := pending
      consumer := .idle
      results := s.results ++ [⟨data, none⟩] }
  else
    { (match pending.buffer with
        | some b => s.releaseReadBuffer b
        | none => s) with
      pending := {}
      consumer := .idle
      results := s.results ++ [⟨data, pending.err.map .source⟩] }

end State

open State in
inductive Step (s : State) : State → Prop where
  | get (b : Nat) (hc : s.copier = .start) (hb : s.owner b = .pool) :
      Step s { s.acquire b with copier := .reading b }
  | read (b : Nat) (c : Chunk) (rest : List Chunk) (hc : s.copier = .reading b)
      (hs : s.source = c :: rest) : Step s (s.copyFrom b c rest)
  /-- `copy` takes the case of the closed channel. -/
  | drop (b : Nat) (ev : RestartReadEvent) (hc : s.copier = .sending ev)
      (hb : ev.buffer = some b) (hclosed : s.closed = true) :
      Step s { s.releaseReadBuffer b with copier := .stopped }
  | call (size : Nat) (hr : s.consumer = .idle) :
      Step s { s with consumer :=
        if s.pending.len = 0 ∧ s.pending.err = none then .waiting size else .copying size }
  | receive (size b : Nat) (ev : RestartReadEvent) (hr : s.consumer = .waiting size)
      (hc : s.copier = .sending ev) (hb : ev.buffer = some b) :
      Step s { s with
        pending := ev
        owner := Function.update s.owner b .consumer
        copier := afterSend ev
        consumer := .copying size }
  /-- `Read` takes the case of the closed channel. -/
  | refuse (size : Nat) (hr : s.consumer = .waiting size) (hclosed : s.closed = true) :
      Step s { s with consumer := .idle, results := s.results ++ [⟨[], some .closed⟩] }
  | copyOut (size : Nat) (hr : s.consumer = .copying size) : Step s (s.copyOut size)
  | close : Step s { s with closed := true }
  | foreignGet (b : Nat) (hb : s.owner b = .pool) :
      Step s { s with owner := Function.update s.owner b .foreign }
  | foreignWrite (b : Nat) (bs : Bytes) (hb : s.owner b = .foreign) :
      Step s { s with memory := Function.update s.memory b bs }
  | foreignPut (b : Nat) (hb : s.owner b = .foreign) :
      Step s { s with owner := Function.update s.owner b .pool }

/-- The states of a reader over a source. -/
def Reachable (source : List Chunk) : State → Prop := Relation.ReflTransGen Step { source := source }

end Diameter.Reader
