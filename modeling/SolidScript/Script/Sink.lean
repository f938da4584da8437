import SolidScript.Script.Document

/-!
# Delivering a script

A sink takes bytes in portions of its own choice.  A script is written to it as a whole: the sink is
offered what is left until nothing is, and is flushed then.  A document that has no script writes
nothing.
-/

namespace SolidScript

/-- A receiver of bytes with states in `σ`. -/
structure Sink (σ : Type) where
  /-- How many of the offered bytes it takes, or nothing if it refuses.  An attempt that is only
  interrupted is made again, so the answer is that of the first attempt that is not. -/
  write : σ → List UInt8 → Option Nat × σ
  /-- Does it get through what it has taken? -/
  flush : σ → Bool × σ

namespace Sink

/-- Offers bytes until all are taken; a sink that takes none of the bytes it is offered has
failed. -/
def writeAll {σ : Type} (sink : Sink σ) (state : σ) : List UInt8 → Bool × σ
  | [] => (true, state)
  | b :: rest =>
    match sink.write state (b :: rest) with
    | (some (n + 1), after) => writeAll sink after (rest.drop n)
    | (_, after) => (false, after)
  termination_by bytes => bytes.length
  decreasing_by simp only [List.length_drop, List.length_cons]; omega

/-- A sink that keeps what it takes: at most `limit` bytes in all and `portion` at a time.  Without
room it refuses, or if `idle` takes nothing. -/
def bounded (limit portion : Option Nat) (idle flushFails : Bool) : Sink (List UInt8) where
  write taken bytes :=
    let room := match limit with
      | some n => n - taken.length
      | none => bytes.length
    let most := match portion with
      | some n => min n room
      | none => room
    let count := min most bytes.length
    if count = 0 && !idle then (none, taken)
    else (some count, taken ++ bytes.take count)
  flush taken := (!flushFails, taken)

end Sink

/-- Writes the script of a document to a sink: how many bytes it has, or the fault, and the state of
the sink afterwards. -/
def Document.writeTo {σ : Type} (document : Document) (sink : Sink σ) (state : σ) :
    Except Fault Nat × σ :=
  match document.render with
  | .error fault => (.error fault, state)
  | .ok script =>
    match sink.writeAll state script.toUTF8.toList with
    | (false, after) => (.error .sink, after)
    | (true, after) =>
      match sink.flush after with
      | (true, last) => (.ok script.utf8ByteSize, last)
      | (false, last) => (.error .sink, last)

end SolidScript
