import Reckoner.Proofs.Run

/-!
# The events tell the run

The events of a run are the recognized fragments in preorder, so they can be replayed on a stack of
the fragments that are still to come: each event is that of the topmost one, whose parts then take
its place.  What is left on the stack shows where a run broke off, and the events of a run that ends
with a value write, in prefix notation, an expression of that value.
-/

namespace Reckoner

open Fragment

variable {limit depth : Nat} {text : Fragment} {c : Capture}

/-! ## Replaying events -/

theorem Kind.kind_of_recognize {k : Kind} {w : Fragment} (h : k.recognize w = some c) :
    c.kind = k := by
  cases k with
  | literal =>
    obtain ⟨v, -, rfl⟩ := Option.map_eq_some_iff.1 h
    rfl
  | call =>
    obtain ⟨name, inner, -, -, -, -, rfl⟩ := call?_eq_some_iff.1 h
    rfl
  | group =>
    obtain ⟨inner, -, -, rfl⟩ := group?_eq_some_iff.1 h
    rfl
  | binary op =>
    obtain ⟨parts, -, rfl⟩ := Option.map_eq_some_iff.1 h
    rfl

/-- The first kind that recognizes the fragment, with what it makes of it. -/
def Fragment.classifyKind (w : Fragment) : Option (Kind × Capture) :=
  Kind.trialOrder.findSome? fun k => (k.recognize w).map (k, ·)

/-- What a fragment is recognized as tells by which kind. -/
theorem Fragment.classifyKind_eq (w : Fragment) :
    w.classifyKind = w.classify.map fun c => (c.kind, c) := by
  rw [classifyKind, classify]
  induction Kind.trialOrder with
  | nil => rfl
  | cons k ks ih =>
    rw [List.findSome?_cons, List.findSome?_cons]
    cases h : k.recognize w with
    | none => simpa using ih
    | some c => simp [Kind.kind_of_recognize h]

/-- The fragments that are still to come, the next one on top, and how deep each lies. -/
abbrev Pending := List (Fragment × Nat)

/-- Takes the topmost fragment for that of the event, if they agree, and puts its parts in its
place. -/
def Pending.step (limit : Nat) : Pending → Event → Option Pending
  | [], _ => none
  | (text, depth) :: pending, e =>
    if e.fragment = trim text ∧ e.depth = depth ∧ depth ≤ limit ∧
        Fragment.classifyKind (trim text) = some (e.kind, e.capture) then
      some (e.capture.parts.map (·, depth + 1) ++ pending)
    else none

/-- The fragments that are still to come after the events. -/
def replay (limit : Nat) (events : List Event) (pending : Pending) : Option Pending :=
  events.foldlM (Pending.step limit) pending

theorem replay_append (events events' : List Event) (pending : Pending) :
    replay limit (events ++ events') pending =
      (replay limit events pending).bind (replay limit events') :=
  List.foldlM_append

theorem replay_cons (hle : depth ≤ limit) (hc : Fragment.classify (trim text) = some c)
    (events : List Event) (pending : Pending) :
    replay limit (⟨c, trim text, depth⟩ :: events) ((text, depth) :: pending) =
      replay limit events (c.parts.map (·, depth + 1) ++ pending) := by
  have hkind : Fragment.classifyKind (trim text) = some (c.kind, c) := by
    rw [classifyKind_eq, hc]
    rfl
  rw [replay, List.foldlM_cons, Pending.step, if_pos ⟨rfl, rfl, hle, hkind⟩]
  rfl

/-! ## Prefix notation -/

/-- Reads an event in front of expressions with these values. -/
def Event.apply (e : Event) (values : List Binary64) : Option (List Binary64) :=
  match e.capture, values with
  | .literal value, values => (readLiteral value).toOption.map (· :: values)
  | .group _, x :: values => some (x :: values)
  | .call name _, x :: values => (applyFunction name x).toOption.map (· :: values)
  | .binary _ op _, a :: b :: values => (applyOperator op.symbol a b).toOption.map (· :: values)
  | _, _ => none

/-- The values of the expressions that events write in prefix notation, in front of others. -/
def prefixValues (values : List Binary64) : List Event → Option (List Binary64)
  | [] => some values
  | e :: events => (prefixValues values events).bind e.apply

theorem prefixValues_append (values : List Binary64) (events events' : List Event) :
    prefixValues values (events ++ events') =
      (prefixValues values events').bind (prefixValues · events) := by
  induction events with
  | nil => simp [prefixValues]
  | cons e events ih =>
    rw [List.cons_append, prefixValues, ih, Option.bind_assoc]
    rfl

/-- The events write one expression, which has this value. -/
def Writes (events : List Event) (v : Binary64) : Prop :=
  ∀ values, prefixValues values events = some (v :: values)

def Event.isLiteral (e : Event) : Bool :=
  match e.kind with
  | .literal => true
  | _ => false

def Event.isBinary (e : Event) : Bool :=
  match e.kind with
  | .binary _ => true
  | _ => false

/-! ## Where a run ends -/

/-- What the events of a run, and the fragments that are still to come, tell of its result. -/
inductive Ending (limit : Nat) : List Event → Pending → Except EvalError Binary64 → Prop
  | value {events : List Event} {v : Binary64}
      (hcount : events.countP Event.isLiteral = events.countP Event.isBinary + 1)
      (hvalue : Writes events v) : Ending limit events [] (.ok v)
  | depthExceeded {events : List Event} {text : Fragment} {pending : Pending} :
      Ending limit events ((text, limit + 1) :: pending) (.error (.depthExceeded limit))
  | noMatchingRule {events : List Event} {text : Fragment} {depth : Nat} {pending : Pending}
      (hle : depth ≤ limit) (hc : Fragment.classify (trim text) = none) :
      Ending limit events ((text, depth) :: pending) (.error (.noMatchingRule (trim text)))
  | unknownFunction {before after : List Event} {e : Event} {name argument : Fragment}
      {x : Binary64} {pending : Pending} (hc : e.capture = .call name argument)
      (hunknown : ∀ f : Function, f.name ≠ name)
      (hargument : replay limit after [(argument, e.depth + 1)] = some [])
      (hvalue : Writes after x) :
      Ending limit (before ++ e :: after) pending (.error (.unknownFunction name))

namespace Ending

variable {events events' : List Event} {pending : Pending} {result : Except EvalError Binary64}
  {e : Event} {a b v : Binary64}

theorem pending_eq_nil (h : Ending limit events pending (.ok v)) : pending = [] := by
  cases h
  rfl

/-- An error stays when there is more before it and when more was still to come. -/
theorem of_error {error : EvalError} (h : Ending limit events pending (.error error))
    (before : List Event) (later : Pending) :
    Ending limit (before ++ events) (pending ++ later) (.error error) := by
  cases h with
  | depthExceeded => exact .depthExceeded
  | noMatchingRule hle hc => exact .noMatchingRule hle hc
  | unknownFunction hc hunknown hargument hvalue =>
    rw [← List.append_assoc]
    exact .unknownFunction hc hunknown hargument hvalue

theorem literal {w : Fragment} (hc : e.capture = .literal w) (hv : readLiteral w = .ok v) :
    Ending limit [e] [] (.ok v) := by
  have hkind : e.kind = .literal := by rw [Event.kind, hc, Capture.kind]
  refine .value ?_ fun values => ?_
  · simp [Event.isLiteral, Event.isBinary, hkind]
  · simp [prefixValues, Event.apply, hc, hv, Except.toOption]

theorem group {inner : Fragment} (h : Ending limit events pending result)
    (hc : e.capture = .group inner) : Ending limit (e :: events) pending result := by
  have hkind : e.kind = .group := by rw [Event.kind, hc, Capture.kind]
  cases h with
  | value hcount hvalue =>
    refine .value ?_ fun values => ?_
    · simpa [Event.isLiteral, Event.isBinary, hkind] using hcount
    · simp [prefixValues, hvalue values, Event.apply, hc]
  | depthExceeded => exact .depthExceeded
  | noMatchingRule hle hc => exact .noMatchingRule hle hc
  | unknownFunction hc hunknown hargument hvalue =>
    rw [← List.cons_append]
    exact .unknownFunction hc hunknown hargument hvalue

/-- Behind its argument, a call ends with the value of its function, or at its name. -/
theorem call {name argument : Fragment} (h : Ending limit events pending (.ok a))
    (hreplay : replay limit events [(argument, e.depth + 1)] = some pending)
    (hc : e.capture = .call name argument) :
    Ending limit (e :: events) pending (applyFunction name a) := by
  have hkind : e.kind = .call := by rw [Event.kind, hc, Capture.kind]
  cases h with
  | value hcount hvalue =>
    cases hf : applyFunction name a with
    | ok v =>
      refine .value ?_ fun values => ?_
      · simpa [Event.isLiteral, Event.isBinary, hkind] using hcount
      · simp [prefixValues, hvalue values, Event.apply, hc, hf, Except.toOption]
    | error error =>
      obtain ⟨hunknown, rfl⟩ := applyFunction_eq_error_iff.1 hf
      rw [← List.nil_append (e :: events)]
      exact .unknownFunction hc hunknown hreplay hvalue

theorem binary {left right : Fragment} {op : Operator} {pending' : Pending}
    (ha : Ending limit events pending (.ok a)) (hb : Ending limit events' pending' (.ok b))
    (hc : e.capture = .binary left op right) :
    Ending limit (e :: (events ++ events')) pending' (.ok (op.apply a b)) := by
  have hkind : e.kind = .binary op := by rw [Event.kind, hc, Capture.kind]
  have hliteral : e.isLiteral = false := by simp only [Event.isLiteral, hkind]
  have hbinary : e.isBinary = true := by simp only [Event.isBinary, hkind]
  cases ha with
  | value hcount hvalue =>
    cases hb with
    | value hcount' hvalue' =>
      refine .value ?_ fun values => ?_
      · rw [List.countP_cons_of_neg (by simp [hliteral]), List.countP_cons_of_pos hbinary,
          List.countP_append, List.countP_append, hcount, hcount']
        omega
      · rw [prefixValues, prefixValues_append, hvalue' values, Option.bind_some,
          hvalue (b :: values), Option.bind_some]
        simp [Event.apply, hc, Except.toOption]

end Ending

/-! ## Every run can be replayed -/

/-- The replay takes the fragment away, or breaks off where the run does. -/
def Replayable (limit depth : Nat) (text : Fragment) (x : Traced Binary64) : Prop :=
  ∃ left, (∀ pending, replay limit x.events ((text, depth) :: pending) = some (left ++ pending)) ∧
    Ending limit x.events left x.result

namespace Replayable

theorem group {inner : Fragment} (hle : depth ≤ limit)
    (hc : Fragment.classify (trim text) = some (.group inner))
    (h : Replayable limit (depth + 1) inner (run limit (depth + 1) inner)) :
    Replayable limit depth text (run limit depth text) := by
  obtain ⟨left, hreplay, hending⟩ := h
  rw [run_of_classify hle hc]
  refine ⟨left, fun pending => ?_, hending.group rfl⟩
  rw [replay_cons hle hc]
  exact hreplay pending

theorem call {name argument : Fragment} (hle : depth ≤ limit)
    (hc : Fragment.classify (trim text) = some (.call name argument))
    (h : Replayable limit (depth + 1) argument (run limit (depth + 1) argument)) :
    Replayable limit depth text (run limit depth text) := by
  obtain ⟨left, hreplay, hending⟩ := h
  rw [run_of_classify hle hc, runCapture, Traced.events_bind_ofExcept]
  refine ⟨left, fun pending => ?_, ?_⟩
  · rw [replay_cons hle hc]
    exact hreplay pending
  cases hres : (run limit (depth + 1) argument).result with
  | error error =>
    rw [Traced.bind_of_error hres]
    rw [hres] at hending
    simpa using hending.of_error [⟨.call name argument, trim text, depth⟩] []
  | ok a =>
    rw [Traced.bind_of_ok hres]
    rw [hres] at hending
    have hargument := hreplay []
    rw [List.append_nil] at hargument
    exact hending.call hargument rfl

theorem binary {l r : Fragment} {op : Operator} (hle : depth ≤ limit)
    (hc : Fragment.classify (trim text) = some (.binary l op r))
    (hl : Replayable limit (depth + 1) l (run limit (depth + 1) l))
    (hr : Replayable limit (depth + 1) r (run limit (depth + 1) r)) :
    Replayable limit depth text (run limit depth text) := by
  obtain ⟨left, hreplay, hending⟩ := hl
  obtain ⟨left', hreplay', hending'⟩ := hr
  rw [run_of_classify hle hc, runCapture]
  cases hres : (run limit (depth + 1) l).result with
  | error error =>
    -- the right operand is still to come
    rw [Traced.bind_of_error hres]
    rw [hres] at hending
    refine ⟨left ++ [(r, depth + 1)], fun pending => ?_,
      hending.of_error [⟨.binary l op r, trim text, depth⟩] _⟩
    rw [replay_cons hle hc, List.append_assoc]
    exact hreplay ((r, depth + 1) :: pending)
  | ok a =>
    rw [Traced.bind_of_ok hres, Traced.events_bind_ofExcept]
    rw [hres] at hending
    cases hending.pending_eq_nil
    refine ⟨left', fun pending => ?_, ?_⟩
    · have hfirst := hreplay ((r, depth + 1) :: pending)
      rw [List.nil_append] at hfirst
      calc
        _ = replay limit _ ((l, depth + 1) :: (r, depth + 1) :: pending) := replay_cons hle hc _ _
        _ = replay limit (run limit (depth + 1) r).events ((r, depth + 1) :: pending) := by
          rw [replay_append, hfirst, Option.bind_some]
        _ = some (left' ++ pending) := hreplay' pending
    cases hres' : (run limit (depth + 1) r).result with
    | error error =>
      rw [Traced.bind_of_error hres']
      rw [hres'] at hending'
      simpa using hending'.of_error
        (⟨.binary l op r, trim text, depth⟩ :: (run limit (depth + 1) l).events) []
    | ok b =>
      rw [Traced.bind_of_ok hres']
      rw [hres'] at hending'
      exact hending.binary hending' rfl

end Replayable

theorem replayable_run (hle : depth ≤ limit + 1) :
    Replayable limit depth text (run limit depth text) := by
  induction text using Fragment.inductionOnParts generalizing depth with
  | step text ih =>
    rcases run_cases limit depth text with ⟨hlt, hrun⟩ | ⟨hle, hc, hrun⟩ | ⟨c, hle, hc, hrun⟩
    · cases show depth = limit + 1 by omega
      rw [hrun]
      exact ⟨[(text, limit + 1)], fun pending => rfl, .depthExceeded⟩
    · rw [hrun]
      exact ⟨[(text, depth)], fun pending => rfl, .noMatchingRule hle hc⟩
    have parts : ∀ p ∈ c.parts, Replayable limit (depth + 1) p (run limit (depth + 1) p) :=
      fun p hp => ih c hc p hp (Nat.succ_le_succ hle)
    cases c with
    | literal value =>
      cases classify_eq_some_iff.1 hc with
      | literal hn =>
        obtain ⟨n, hn⟩ := hn
        have hv : readLiteral (trim text) = .ok n.value := hn ▸ n.readLiteral_text
        rw [hrun, runCapture, hv]
        exact ⟨[], fun pending => replay_cons hle hc [] pending, .literal rfl hv⟩
    | call name argument => exact .call hle hc (parts argument (by simp [Capture.parts]))
    | group inner => exact .group hle hc (parts inner (by simp [Capture.parts]))
    | binary l op r =>
      exact .binary hle hc (parts l (by simp [Capture.parts])) (parts r (by simp [Capture.parts]))

/-- **The events are the run in preorder.** They can be replayed from the text on its own, to the
end, and the fragments that are then still to come fit the result, as do the events. -/
theorem exists_ending_trace (text : Fragment) (limit : Nat) : ∃ left,
    replay limit (trace text limit).events [(text, 0)] = some left ∧
      Ending limit (trace text limit).events left (evaluate text limit) := by
  have hrun : Replayable limit 0 text (trace text limit) := replayable_run (Nat.zero_le _)
  obtain ⟨left, hreplay, hending⟩ := hrun
  have hwhole := hreplay []
  rw [List.append_nil] at hwhole
  exact ⟨left, hwhole, hending⟩

end Reckoner
