import Reckoner.Proofs.Rendering

/-!
# Groups and calls around a text

Whatever stands between the parentheses of a group or a call, the whole is read as that group or
call and the inner text is evaluated as it would be on its own, only deeper.  So layers of
parentheses count against the limit, and change nothing else before they are applied, from the
innermost outward.
-/

namespace Reckoner

open Fragment

/-! ## Deeper runs -/

/-- The error of a run that lies `k` fragments deeper, with a limit that is higher by as many. -/
def EvalError.deeper (k : Nat) : EvalError → EvalError
  | depthExceeded limit => depthExceeded (limit + k)
  | e => e

def Event.deeper (k : Nat) (e : Event) : Event := { e with depth := e.depth + k }

namespace Traced

variable {α β : Type} {k : Nat}

/-- The computation where it lies `k` fragments deeper. -/
def deeper (k : Nat) (x : Traced α) : Traced α :=
  ⟨x.events.map (Event.deeper k), x.result.mapError (EvalError.deeper k)⟩

theorem deeper_bind (x : Traced α) (f : α → Traced β) :
    (x >>= f).deeper k = x.deeper k >>= fun a => (f a).deeper k := by
  cases h : x.result with
  | ok a =>
    have hdeeper : (x.deeper k).result = .ok a := by rw [deeper, h]; rfl
    rw [bind_of_ok h, bind_of_ok hdeeper]
    simp only [deeper, List.map_append]
  | error e =>
    have hdeeper : (x.deeper k).result = .error (e.deeper k) := by rw [deeper, h]; rfl
    rw [bind_of_error h, bind_of_error hdeeper]
    rfl

end Traced

variable {limit depth : Nat} {text : Fragment} {c : Capture} {k : Nat}

theorem deeper_readLiteral (value : Fragment) :
    (Traced.ofExcept (readLiteral value)).deeper k = .ofExcept (readLiteral value) := by
  rw [readLiteral]
  split <;> rfl

theorem deeper_applyFunction (name : List Char) (x : Binary64) :
    (Traced.ofExcept (applyFunction name x)).deeper k = .ofExcept (applyFunction name x) := by
  rw [applyFunction]
  split <;> rfl

theorem runCapture_add (ih : ∀ p ∈ c.parts,
    run (limit + k) (depth + 1 + k) p = (run limit (depth + 1) p).deeper k) :
    runCapture (limit + k) (depth + k) c = (runCapture limit depth c).deeper k := by
  cases c with
  | literal value => exact (deeper_readLiteral value).symm
  | call name argument =>
    simp only [runCapture, Traced.deeper_bind, deeper_applyFunction, Nat.add_right_comm depth k,
      ih argument (by simp [Capture.parts])]
  | group inner =>
    simp only [runCapture, Nat.add_right_comm depth k, ih inner (by simp [Capture.parts])]
  | binary left op right =>
    simp only [runCapture, Traced.deeper_bind, Nat.add_right_comm depth k,
      ih left (by simp [Capture.parts]), ih right (by simp [Capture.parts])]
    rfl

/-- Only the distance to the limit matters to a run. -/
theorem run_add (k : Nat) : run (limit + k) (depth + k) text = (run limit depth text).deeper k := by
  induction text using Fragment.inductionOnParts generalizing depth with
  | step text ih =>
    rcases run_cases limit depth text with ⟨hlt, hrun⟩ | ⟨hle, hc, hrun⟩ | ⟨c, hle, hc, hrun⟩
    · rw [hrun, run_of_lt (by omega)]
      rfl
    · rw [hrun, run_of_classify_eq_none (by omega) hc]
      rfl
    · rw [hrun, run_of_classify (by omega) hc, runCapture_add fun p hp => ih c hc p hp]
      rfl

/-! ## Layers -/

/-- What stands around a text: parentheses, or a name and parentheses. -/
inductive Layer
  | group
  | call (name : List Char) (name_ne_nil : name ≠ []) (name_word : ∀ c ∈ name, isWordChar c)

namespace Layer

/-- What stands before the text. -/
def opening : Layer → Fragment
  | group => ['(']
  | call name _ _ => name ++ ['(']

def kind : Layer → Kind
  | group => .group
  | call _ _ _ => .call

/-- What the layer around a text is recognized as. -/
def capture (inner : Fragment) : Layer → Capture
  | group => .group inner
  | call name _ _ => .call name inner

/-- What the layer makes of the value of the text. -/
def apply : Layer → Binary64 → Except EvalError Binary64
  | group, x => .ok x
  | call name _ _, x => applyFunction name x

/-- The text inside the layers, of which the first is the outermost. -/
def wrap (layers : List Layer) (text : Fragment) : Fragment :=
  layers.flatMap opening ++ text ++ List.replicate layers.length ')'

/-- What is recorded of the layers, the outermost of which lies `depth` fragments deep. -/
def events (text : Fragment) : Nat → List Layer → List Event
  | _, [] => []
  | depth, l :: layers =>
    ⟨l.capture (wrap layers text), wrap (l :: layers) text, depth⟩ ::
      events text (depth + 1) layers

variable {layers : List Layer}

theorem wrap_cons (l : Layer) (layers : List Layer) (text : Fragment) :
    wrap (l :: layers) text = l.opening ++ (wrap layers text ++ [')']) := by
  simp [wrap, List.replicate_succ']

theorem wrap_ne_nil (h : text ≠ []) : wrap layers text ≠ [] := by
  simp [wrap, h]

theorem trimmed_opening_append (l : Layer) (inner : Fragment) :
    Trimmed (l.opening ++ (inner ++ [')'])) := by
  refine Trimmed.of_ends (fun c hc => ?_) (fun c hc => ?_)
  · cases l with
    | group =>
      cases hc
      decide
    | call name hname hword =>
      rw [opening, List.append_assoc, List.head?_append_of_ne_nil _ hname] at hc
      exact isBlank_of_isWordChar (hword c (List.mem_of_mem_head? hc))
  · rw [← List.append_assoc, List.getLast?_concat] at hc
    cases hc
    decide

/-- Whatever is inside, the outermost layer is what the whole is recognized as. -/
theorem classify_opening_append (l : Layer) {inner : Fragment} (h : inner ≠ []) :
    Fragment.classify (l.opening ++ (inner ++ [')'])) = some (l.capture inner) := by
  rw [classify_eq_some_iff]
  cases l with
  | group => exact .group h rfl
  | call name hname hword => exact .call hname hword h (by simp [opening])

/-- What is inside the layer is evaluated, and then the layer is applied. -/
theorem runCapture_capture (l : Layer) (inner : Fragment) :
    runCapture limit depth (l.capture inner) = ⟨(run limit (depth + 1) inner).events,
      (run limit (depth + 1) inner).result >>= l.apply⟩ := by
  cases l with
  | group =>
    have hresult : (run limit (depth + 1) inner).result >>= Layer.group.apply =
        (run limit (depth + 1) inner).result := bind_pure _
    rw [capture, runCapture, hresult]
  | call name _ _ =>
    rw [capture, runCapture, ← Traced.result_bind_ofExcept, ← Traced.events_bind_ofExcept]
    rfl

/-- A run over a text in layers records these, runs over the text below them and applies them from
the innermost outward. -/
theorem run_wrap (h : text ≠ []) (hle : depth + layers.length ≤ limit) :
    run limit depth (wrap layers text) =
      ⟨events text depth layers ++ (run limit (depth + layers.length) text).events,
        (run limit (depth + layers.length) text).result >>= (layers.foldrM apply ·)⟩ := by
  induction layers generalizing depth with
  | nil =>
    have hwrap : wrap [] text = text := by simp [wrap]
    have hresult : (run limit depth text).result >>= ([].foldrM apply ·) =
        (run limit depth text).result := bind_pure _
    rw [hwrap, List.length_nil, Nat.add_zero, hresult]
    rfl
  | cons l layers ih =>
    rw [List.length_cons, Nat.add_comm layers.length, ← Nat.add_assoc] at hle ⊢
    have hinner := ih hle
    have htrim := trimmed_opening_append l (wrap layers text)
    have hc : Fragment.classify (trim (wrap (l :: layers) text)) =
        some (l.capture (wrap layers text)) := by
      rw [wrap_cons, htrim]
      exact classify_opening_append l (wrap_ne_nil h)
    rw [run_of_classify (by omega) hc, runCapture_capture, hinner, events, wrap_cons, htrim]
    simp only [List.foldrM_cons, bind_assoc, List.cons_append]

theorem map_events (text : Fragment) (depth : Nat) (layers : List Layer) :
    (events text depth layers).map (fun e => (e.kind, e.depth)) =
      (layers.zipIdx depth).map fun (l, i) => (l.kind, i) := by
  induction layers generalizing depth with
  | nil => rfl
  | cons l layers ih =>
    have hkind : (l.capture (wrap layers text)).kind = l.kind := by cases l <;> rfl
    rw [events, List.map_cons, ih, List.zipIdx_cons, List.map_cons, Event.kind, hkind]

theorem foldrM_apply_of_groups (h : ∀ l ∈ layers, l = group) (v : Binary64) :
    layers.foldrM apply v = .ok v := by
  induction layers with
  | nil => rfl
  | cons l layers ih =>
    obtain ⟨rfl, hlayers⟩ := List.forall_mem_cons.1 h
    rw [List.foldrM_cons, ih hlayers]
    rfl

end Layer

/-- **Layers around a text.** A text in layers of groups and calls has the result that it has on its
own, with a limit that is lower by as many layers; a value then goes through the layers from the
innermost outward, up to the first name of no function.  The events are one for each layer and then
those of the text, deeper by as many layers.  So parentheses alone change neither a value nor an
error other than for the depth. -/
theorem evaluate_wrap (layers : List Layer) {text : Fragment} (h : text ≠ []) (limit : Nat) :
    (evaluate (Layer.wrap layers text) (limit + layers.length) =
      (evaluate text limit).mapError (EvalError.deeper layers.length) >>=
        (layers.foldrM Layer.apply ·)) ∧
    (trace (Layer.wrap layers text) (limit + layers.length)).events =
      Layer.events text 0 layers ++
        (trace text limit).events.map (Event.deeper layers.length) ∧
    (Layer.events text 0 layers).map (fun e => (e.kind, e.depth)) =
      layers.zipIdx.map (fun (l, i) => (l.kind, i)) ∧
    ((∀ l ∈ layers, l = .group) →
      (∀ v, evaluate text limit = .ok v →
        evaluate (Layer.wrap layers text) (limit + layers.length) = .ok v) ∧
      ∀ error, (∀ limit', error ≠ .depthExceeded limit') → evaluate text limit = .error error →
        evaluate (Layer.wrap layers text) (limit + layers.length) = .error error) := by
  have hwrap := Layer.run_wrap h (show 0 + layers.length ≤ limit + layers.length by omega)
  rw [run_add] at hwrap
  have hresult : evaluate (Layer.wrap layers text) (limit + layers.length) =
      (evaluate text limit).mapError (EvalError.deeper layers.length) >>=
        (layers.foldrM Layer.apply ·) := congrArg Traced.result hwrap
  refine ⟨hresult, congrArg Traced.events hwrap, Layer.map_events text 0 layers, fun hgroups => ?_⟩
  rw [hresult]
  constructor
  · intro v hv
    rw [hv]
    exact Layer.foldrM_apply_of_groups hgroups v
  · intro error hne herror
    rw [herror]
    cases error with
    | depthExceeded limit' => exact absurd rfl (hne limit')
    | _ => rfl

/-- Of two unknown names it is the inner one that is reported. -/
theorem evaluate_wrap_unknown :
    ['1'] ≠ [] ∧ evaluate "f((g(1)))".toList 3 = .error (.unknownFunction ['g']) ∧
    (trace "f((g(1)))".toList 3).events.map (fun e => (e.kind, e.depth)) =
      [(.call, 0), (.group, 1), (.call, 2), (.literal, 3)] := by
  have hone : evaluate ['1'] 0 = .ok (Numeral.ofDigit '1' rfl).value :=
    (Numeral.ofDigit '1' rfl).evaluate_text 0
  have hevent : (trace ['1'] 0).events = [⟨.literal ['1'], ['1'], 0⟩] := by
    have hc : Fragment.classify (trim ['1']) = some (.literal ['1']) := by decide
    exact congrArg Traced.events (run_of_classify le_rfl hc)
  have hne : ['1'] ≠ [] := by simp
  obtain ⟨hresult, hevents, hlayers, -⟩ := evaluate_wrap
    [.call ['f'] (by simp) (List.forall_mem_singleton.2 (by decide)), .group,
      .call ['g'] (by simp) (List.forall_mem_singleton.2 (by decide))] hne 0
  rw [hone] at hresult
  refine ⟨hne, hresult, ?_⟩
  refine (congrArg (List.map fun e => (e.kind, e.depth)) hevents).trans ?_
  rw [List.map_append, hlayers, hevent]
  rfl

end Reckoner
