import Mathlib.Tactic
import SolidScript.Recording.Compose

/-!
# What reaches a sink

A sink may take as many bytes as it likes at a time, refuse at any moment, and fail when it is
flushed.  To tell what it has been given, it is run together with the list of what was asked of it
(`Sink.recorded`), which changes nothing for the sink.  What is left is offered again and again, so
what a sink has taken is always the front of what was to be written (`Sink.exists_of_writeAll`).  A
document without a script asks nothing of the sink at all (`Document.writeTo_delivers`).
-/

namespace SolidScript

namespace Text

theorem length_toList_loop (bytes : ByteArray) (start : Nat) (before : List UInt8)
    (h : start ≤ bytes.size) :
    (ByteArray.toList.loop bytes start before).length = bytes.size - start + before.length := by
  fun_induction ByteArray.toList.loop bytes start before with
  | case1 start before hlt ih =>
      rw [ih hlt, List.length_cons]
      omega
  | case2 start before hle =>
      rw [List.length_reverse]
      omega

/-- The number of bytes of a text is that of its encoding. -/
theorem length_toUTF8 (text : String) : text.toUTF8.toList.length = text.utf8ByteSize := by
  rw [ByteArray.toList, length_toList_loop _ _ _ (Nat.zero_le _)]
  rfl

end Text

namespace Sink

/-- Something that is asked of a sink. -/
inductive Request where
  /-- It is offered bytes, and takes some of them or refuses. -/
  | write (offered : List UInt8) (taken : Option Nat)
  /-- It is flushed, and gets through or not. -/
  | flush (through : Bool)
  deriving DecidableEq, Repr

/-- The bytes that were taken with a request. -/
def Request.bytes : Request → List UInt8
  | write offered (some n) => offered.take n
  | write _ none => []
  | flush _ => []

/-- All bytes that were taken, in their order. -/
def taken (requests : List Request) : List UInt8 := requests.flatMap Request.bytes

variable {σ : Type}

/-- The sink with the requests made of it. -/
def recorded (sink : Sink σ) : Sink (σ × List Request) where
  write state bytes :=
    let (count, after) := sink.write state.1 bytes
    (count, after, state.2 ++ [.write bytes count])
  flush state :=
    let (through, after) := sink.flush state.1
    (through, after, state.2 ++ [.flush through])

/-- A sink that takes at least one of the bytes it is offered, whatever they are, and gets through
whenever it is flushed. -/
structure IsWilling (sink : Sink σ) : Prop where
  write : ∀ state b rest, ∃ n after, sink.write state (b :: rest) = (some (n + 1), after)
  flush : ∀ state, (sink.flush state).1 = true

theorem taken_append (xs ys : List Request) : taken (xs ++ ys) = taken xs ++ taken ys :=
  List.flatMap_append

theorem recorded_write {sink : Sink σ} {state after : σ} {bytes : List UInt8} {count : Option Nat}
    (h : sink.write state bytes = (count, after)) (requests : List Request) :
    sink.recorded.write (state, requests) bytes =
      (count, after, requests ++ [.write bytes count]) := by
  simp only [recorded, h]

theorem recorded_flush {sink : Sink σ} {state after : σ} {through : Bool}
    (h : sink.flush state = (through, after)) (requests : List Request) :
    sink.recorded.flush (state, requests) = (through, after, requests ++ [.flush through]) := by
  simp only [recorded, h]

/-! ## Writing all bytes -/

theorem writeAll_of_taken {sink : Sink σ} {state after : σ} {b : UInt8} {rest : List UInt8}
    {n : Nat} (h : sink.write state (b :: rest) = (some (n + 1), after)) :
    sink.writeAll state (b :: rest) = sink.writeAll after (rest.drop n) := by
  rw [writeAll, h]

theorem writeAll_of_refused {sink : Sink σ} {state after : σ} {b : UInt8} {rest : List UInt8}
    {count : Option Nat} (h : sink.write state (b :: rest) = (count, after))
    (hcount : ∀ n, count = some (n + 1) → False) :
    sink.writeAll state (b :: rest) = (false, after) := by
  rw [writeAll, h]
  rcases count with _ | _ | n
  · rfl
  · rfl
  · exact (hcount n rfl).elim

/-- What a sink does when all bytes are written to it: being recorded makes no difference to it, it
is offered bytes but not flushed, and what it takes and what is left over are the bytes to be
written.  All is well exactly when nothing is left over. -/
theorem exists_of_writeAll (sink : Sink σ) (state : σ) (bytes : List UInt8)
    (requests : List Request) :
    ∃ more left,
      sink.recorded.writeAll (state, requests) bytes =
        ((sink.writeAll state bytes).1, (sink.writeAll state bytes).2, requests ++ more) ∧
      taken more ++ left = bytes ∧
      ((sink.writeAll state bytes).1 = true ↔ left = []) ∧
      ∀ through, Request.flush through ∉ more := by
  induction state, bytes using writeAll.induct sink generalizing requests with
  | case1 state =>
      refine ⟨[], [], ?_, rfl, ?_, fun _ => List.not_mem_nil⟩
      · rw [writeAll, writeAll, List.append_nil]
      · rw [writeAll]
        exact iff_of_true rfl rfl
  | case2 state b rest n after hwrite ih =>
      -- at least one byte is gone, and the rest is offered next
      obtain ⟨more, left, hrun, hbytes, hleft, hflush⟩ :=
        ih (requests ++ [.write (b :: rest) (some (n + 1))])
      refine ⟨.write (b :: rest) (some (n + 1)) :: more, left, ?_, ?_, ?_, ?_⟩
      · rw [writeAll_of_taken hwrite, writeAll_of_taken (recorded_write hwrite requests), hrun,
          List.append_assoc, List.singleton_append]
      · show (b :: rest).take (n + 1) ++ taken more ++ left = b :: rest
        rw [List.append_assoc, hbytes, List.take_succ_cons, List.cons_append, List.take_append_drop]
      · rw [writeAll_of_taken hwrite]
        exact hleft
      · intro through hmem
        rcases List.mem_cons.mp hmem with heq | hmem
        · cases heq
        · exact hflush through hmem
  | case3 state b rest count after hcount hwrite =>
      -- the sink refuses what it is offered, or takes nothing of it
      refine ⟨[.write (b :: rest) count], b :: rest, ?_, ?_, ?_, ?_⟩
      · rw [writeAll_of_refused hwrite hcount,
          writeAll_of_refused (recorded_write hwrite requests) hcount]
      · rcases count with _ | _ | n
        · rfl
        · rfl
        · exact (hcount n rfl).elim
      · rw [writeAll_of_refused hwrite hcount]
        exact iff_of_false Bool.false_ne_true (List.cons_ne_nil b rest)
      · intro through hmem
        cases List.mem_singleton.mp hmem

/-- A willing sink takes all bytes. -/
theorem IsWilling.writeAll {sink : Sink σ} (h : sink.IsWilling) (state : σ) (bytes : List UInt8) :
    (sink.writeAll state bytes).1 = true := by
  induction state, bytes using writeAll.induct sink with
  | case1 state => rw [Sink.writeAll]
  | case2 state b rest n after hwrite ih =>
      rw [writeAll_of_taken hwrite]
      exact ih
  | case3 state b rest count after hcount hwrite =>
      obtain ⟨n, after', hsome⟩ := h.write state b rest
      rw [hwrite] at hsome
      cases hsome
      exact (hcount n rfl).elim

/-- Without a limit a sink is willing, in whatever portions it takes what it is offered. -/
theorem isWilling_bounded (portion : Nat) (idle : Bool) :
    (bounded none (some (portion + 1)) idle false).IsWilling where
  write taken b rest := by
    refine ⟨min portion rest.length, taken ++ (b :: rest).take (min portion rest.length + 1), ?_⟩
    simp [bounded, Nat.add_min_add_right]
  flush taken := rfl

end Sink

namespace Document

open Sink

variable {σ : Type} {document : Document} {fault : Fault} {script : String}

/-- Without a script nothing is asked of a sink. -/
theorem writeTo_of_error (h : document.render = .error fault) (sink : Sink σ) (state : σ) :
    document.writeTo sink state = (.error fault, state) := by
  rw [writeTo, h]

theorem writeTo_of_refused (h : document.render = .ok script) {sink : Sink σ} {state after : σ}
    (hwrite : sink.writeAll state script.toUTF8.toList = (false, after)) :
    document.writeTo sink state = (.error .sink, after) := by
  simp only [writeTo, h, hwrite]

theorem writeTo_of_flushed (h : document.render = .ok script) {sink : Sink σ}
    {state after last : σ} {through : Bool}
    (hwrite : sink.writeAll state script.toUTF8.toList = (true, after))
    (hflush : sink.flush after = (through, last)) :
    document.writeTo sink state =
      (if through then .ok script.utf8ByteSize else .error .sink, last) := by
  simp only [writeTo, h, hwrite, hflush]
  cases through <;> rfl

/-- What a sink is asked when a script is written to it.  Being recorded makes no difference to the
sink, and what it takes is the front of the script.  All is well exactly when it takes everything
and gets through the flush that comes last, and otherwise it is the sink that has failed. -/
theorem exists_of_writeTo (h : document.render = .ok script) (sink : Sink σ) (state : σ) :
    ∃ requests,
      document.writeTo sink.recorded (state, []) =
        ((document.writeTo sink state).1, (document.writeTo sink state).2, requests) ∧
      taken requests <+: script.toUTF8.toList ∧
      (∀ n, (document.writeTo sink state).1 = .ok n ↔
        n = script.toUTF8.toList.length ∧ taken requests = script.toUTF8.toList ∧
          requests.getLast? = some (.flush true)) ∧
      ∀ fault, (document.writeTo sink state).1 = .error fault → fault = .sink := by
  obtain ⟨more, left, hrun, hbytes, hleft, hnoflush⟩ :=
    exists_of_writeAll sink state script.toUTF8.toList []
  rw [List.nil_append] at hrun
  rcases hwrite : sink.writeAll state script.toUTF8.toList with ⟨all, after⟩
  rw [hwrite] at hrun hleft
  cases all with
  | false =>
      -- something is left over, and the sink is not flushed
      rw [writeTo_of_refused h hwrite, writeTo_of_refused h hrun]
      refine ⟨more, rfl, ⟨left, hbytes⟩, fun n => ?_, fun fault hfault => ?_⟩
      · refine iff_of_false (fun hok => by cases hok) ?_
        rintro ⟨-, -, hlast⟩
        exact hnoflush true (List.mem_of_getLast? hlast)
      · cases hfault
        rfl
  | true =>
      obtain rfl : left = [] := hleft.mp rfl
      rcases hflush : sink.flush after with ⟨through, last⟩
      have htaken : taken (more ++ [.flush through]) = script.toUTF8.toList := by
        rw [taken_append, ← hbytes]
        rfl
      rw [writeTo_of_flushed h hwrite hflush,
        writeTo_of_flushed h hrun (recorded_flush hflush more)]
      refine ⟨more ++ [.flush through], rfl, ⟨[], ?_⟩, fun n => ?_, fun fault hfault => ?_⟩
      · rw [htaken, List.append_nil]
      · rw [List.getLast?_concat, htaken, Text.length_toUTF8]
        cases through with
        | false =>
            refine iff_of_false (fun hok => by cases hok) ?_
            rintro ⟨-, -, hlast⟩
            cases hlast
        | true =>
            constructor
            · intro hok
              exact ⟨(Except.ok.inj hok).symm, rfl, rfl⟩
            · rintro ⟨rfl, -, -⟩
              rfl
      · cases through with
        | false =>
            cases hfault
            rfl
        | true => cases hfault

/-- A willing sink is delivered every script. -/
theorem writeTo_of_isWilling (h : document.render = .ok script) {sink : Sink σ}
    (hsink : sink.IsWilling) (state : σ) :
    ∃ last, document.writeTo sink state = (.ok script.utf8ByteSize, last) := by
  have hall := hsink.writeAll state script.toUTF8.toList
  rcases hwrite : sink.writeAll state script.toUTF8.toList with ⟨all, after⟩
  have hthrough := hsink.flush after
  rcases hflush : sink.flush after with ⟨through, last⟩
  rw [hwrite] at hall
  rw [hflush] at hthrough
  cases hall
  cases hthrough
  exact ⟨last, writeTo_of_flushed h hwrite hflush⟩

theorem writeRecorder_of_error {config : Config} {recorder : Recorder}
    (h : renderRecorder config recorder = .error fault) (sink : Sink σ) (state : σ) :
    writeRecorder config recorder sink state = (.error fault, state) := by
  rw [renderRecorder] at h
  rw [writeRecorder]
  cases hdocument : ofRecorder config recorder with
  | error other =>
      rw [hdocument] at h
      cases h
      rfl
  | ok document =>
      rw [hdocument] at h
      exact writeTo_of_error h sink state

/-- When there is a script, it is that of a document, which is what is written. -/
theorem exists_of_renderRecorder {config : Config} {recorder : Recorder}
    (h : renderRecorder config recorder = .ok script) :
    ∃ document, render document = .ok script ∧
      ofRecorder config recorder = .ok document := by
  rw [renderRecorder] at h
  cases hdocument : ofRecorder config recorder with
  | error other =>
      rw [hdocument] at h
      cases h
  | ok document =>
      rw [hdocument] at h
      exact ⟨document, h, rfl⟩

/-- What reaches a sink from a document.  Being recorded makes no difference to the sink.  When the
document has no script, its fault is the result and nothing is asked of the sink.  Otherwise what
the sink takes is the front of the script; the result is a number, that of the script's bytes,
exactly when the sink takes all of them and gets through the flush that comes last; and any other
end is a fault of the sink.  Of whatever a composition leaves on its recorder, a sink that takes
what it is offered gets the script that is rendered of it, or nothing and there is the same
fault. -/
theorem writeTo_delivers (sink : Sink σ) (state : σ) :
    (∀ document : Document,
      let run := document.writeTo sink.recorded (state, [])
      document.writeTo sink state = (run.1, run.2.1) ∧
      (∀ fault, document.render = .error fault → run = (.error fault, state, [])) ∧
      ∀ script, document.render = .ok script →
        taken run.2.2 <+: script.toUTF8.toList ∧
        (∀ n, run.1 = .ok n ↔
          n = script.toUTF8.toList.length ∧ taken run.2.2 = script.toUTF8.toList ∧
            run.2.2.getLast? = some (.flush true)) ∧
        ∀ fault, run.1 = .error fault → fault.kind = .sink) ∧
    (sink.IsWilling → ∀ (config : Config) (recorder : Recorder),
      let run := writeRecorder config recorder sink.recorded (state, [])
      writeRecorder config recorder sink state = (run.1, run.2.1) ∧
      (∀ script, renderRecorder config recorder = .ok script →
        run.1 = .ok script.toUTF8.toList.length ∧ taken run.2.2 = script.toUTF8.toList) ∧
      ∀ fault, renderRecorder config recorder = .error fault →
        run = (.error fault, state, [])) := by
  constructor
  · intro document
    cases hrender : document.render with
    | error fault =>
        rw [writeTo_of_error hrender, writeTo_of_error hrender]
        refine ⟨rfl, ?_, ?_⟩
        · intro _ hfault
          cases hfault
          rfl
        · intro _ hscript
          cases hscript
    | ok script =>
        obtain ⟨requests, hrun, hfront, hok, hfault⟩ := exists_of_writeTo hrender sink state
        rw [hrun]
        refine ⟨rfl, ?_, ?_⟩
        · intro _ herror
          cases herror
        · intro _ hscript
          cases hscript
          exact ⟨hfront, hok, fun fault h => congrArg Fault.kind (hfault fault h)⟩
  · intro hsink config recorder
    cases hrender : renderRecorder config recorder with
    | error fault =>
        rw [writeRecorder_of_error hrender, writeRecorder_of_error hrender]
        refine ⟨rfl, ?_, ?_⟩
        · intro _ hscript
          cases hscript
        · intro _ hfault
          cases hfault
          rfl
    | ok script =>
        obtain ⟨document, hscript, hdocument⟩ := exists_of_renderRecorder hrender
        obtain ⟨requests, hrun, -, hok, -⟩ := exists_of_writeTo hscript sink state
        obtain ⟨last, hplain⟩ := writeTo_of_isWilling hscript hsink state
        obtain ⟨hlength, htaken, -⟩ := (hok script.utf8ByteSize).mp (by rw [hplain])
        simp only [writeRecorder, hdocument, hrun, hplain]
        refine ⟨trivial, ?_, ?_⟩
        · intro _ heq
          cases heq
          exact ⟨congrArg Except.ok hlength, htaken⟩
        · intro _ herror
          cases herror

/-- A comment of seven bytes does not fit into a sink that has room for five; one that takes three
at a time gets all of it.  Neither is asked anything when a number has no text or a scope is
open. -/
theorem writeTo_delivers_lid :
    (let run := writeTo ⟨{}, [.comment "lid"]⟩
        (Sink.bounded (some 5) (some 3) false false).recorded ([], [])
     run.1 = .error .sink ∧ Fault.sink.kind = .sink ∧
      taken run.2.2 = "// li".toUTF8.toList ∧ taken run.2.2 <+: "// lid\n".toUTF8.toList) ∧
    writeTo ⟨{ resolution := { fa := some .nan } }, [.comment "lid"]⟩
        (Sink.bounded (some 5) (some 3) false false).recorded ([], []) =
      (.error (.nonFinite "resolution" "$fa" .nan), [], []) ∧
    (let run := writeRecorder {} { roots := [.comment "lid"] }
        (Sink.bounded none (some 3) false false).recorded ([], [])
     run.1 = .ok "// lid\n".toUTF8.toList.length ∧
      taken run.2.2 = "// lid\n".toUTF8.toList) ∧
    writeRecorder {} { scopes := [[]] }
        (Sink.bounded none (some 3) false false).recorded ([], []) =
      (.error (.unbalancedScope 1), [], []) := by
  have narrow := writeTo_delivers (Sink.bounded (some 5) (some 3) false false) []
  have wide := (writeTo_delivers (Sink.bounded none (some 3) false false) []).2
    (isWilling_bounded 2 false) {}
  obtain ⟨hfront, -, hfault⟩ :=
    (narrow.1 ⟨{}, [.comment "lid"]⟩).2.2 "// lid\n" (by decide +kernel)
  refine ⟨⟨by decide +kernel, hfault .sink (by decide +kernel), by decide +kernel, hfront⟩,
    ?_, ?_, ?_⟩
  · exact (narrow.1 _).2.1 _ (by decide +kernel)
  · exact (wide _).2.1 "// lid\n" (by decide +kernel)
  · exact (wide _).2.2 _ (by decide +kernel)

end Document
end SolidScript
