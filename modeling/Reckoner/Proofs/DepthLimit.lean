import Mathlib.Order.MinMax
import Reckoner.Proofs.Run

/-!
# The depth limit

The limit never changes what a run does, it only cuts the run off: for every text there is one
threshold, from which on all limits give the same events and the same result, and below which a run
breaks off with an initial piece of these events.  The threshold follows the order of evaluation, as
an error in a left operand ends the run before the right one can get too deep.
-/

namespace Reckoner

variable {α β : Type} {f : Nat → Traced α} {g : Nat → α → Traced β} {need bound : Nat}

/-- Records an event, unless it lies deeper than the limit. -/
def emitWithin (e : Event) (limit : Nat) : Traced Unit :=
  if limit < e.depth then .fail (.depthExceeded limit) else .emit e

theorem run_eq_bind {depth : Nat} {text : Fragment} {c : Capture}
    (hc : Fragment.classify (trim text) = some c) (limit : Nat) :
    run limit depth text = emitWithin ⟨c, trim text, depth⟩ limit >>= fun _ =>
      runCapture limit depth c := by
  rw [emitWithin]
  rcases Nat.lt_or_ge limit depth with hlt | hle
  · rw [if_pos hlt, run_of_lt hlt]
    rfl
  · rw [if_neg (Nat.not_lt.2 hle), run_of_classify hle hc]
    rfl

/-- From the limit `need` on the computations are all the same, and below they are cut off. -/
structure CutBelow (need : Nat) (whole : Traced α) (f : Nat → Traced α) : Prop where
  result_ne : ∀ limit, whole.result ≠ .error (.depthExceeded limit)
  depth_le : ∀ e ∈ whole.events, e.depth ≤ need
  uncut : ∀ limit, need ≤ limit → f limit = whole
  cut : ∀ limit < need, (f limit).result = .error (.depthExceeded limit) ∧
    (f limit).events <+: whole.events ∧ ∀ e ∈ (f limit).events, e.depth ≤ limit

/-- There is a threshold, and it is not above the bound. -/
def HasThreshold (bound : Nat) (f : Nat → Traced α) : Prop :=
  ∃ need ≤ bound, ∃ whole, CutBelow need whole f

namespace HasThreshold

theorem mono {bound' : Nat} (h : HasThreshold bound f) (hle : bound ≤ bound') :
    HasThreshold bound' f := by
  obtain ⟨need, hneed, whole, hcut⟩ := h
  exact ⟨need, hneed.trans hle, whole, hcut⟩

/-- A result without events does not depend on the limit. -/
theorem ofExcept {x : Except EvalError α} (hx : ∀ limit, x ≠ .error (.depthExceeded limit)) :
    HasThreshold bound fun _ => .ofExcept x :=
  ⟨0, Nat.zero_le _, .ofExcept x, hx, by simp [Traced.ofExcept], fun _ _ => rfl, by simp⟩

/-- A computation and what follows it have the later of their thresholds, unless the first of them
ends with an error. -/
theorem bind (hf : HasThreshold bound f) (hg : ∀ a, HasThreshold bound fun limit => g limit a) :
    HasThreshold bound fun limit => f limit >>= g limit := by
  obtain ⟨m, hm, x, hx⟩ := hf
  cases hres : x.result with
  | error e =>
    refine ⟨m, hm, ⟨x.events, .error e⟩, ?_, hx.depth_le, fun limit hle => ?_, fun limit hlt => ?_⟩
    · intro limit he
      cases he
      exact hx.result_ne limit hres
    · rw [hx.uncut limit hle, Traced.bind_of_error hres]
    · obtain ⟨hcut, hevents, hdepth⟩ := hx.cut limit hlt
      rw [Traced.bind_of_error hcut]
      exact ⟨rfl, hevents, hdepth⟩
  | ok a =>
    obtain ⟨n, hn, y, hy⟩ := hg a
    refine ⟨max m n, max_le hm hn, ⟨x.events ++ y.events, y.result⟩, hy.result_ne, ?_,
      fun limit hle => ?_, fun limit hlt => ?_⟩
    · intro e he
      rcases List.mem_append.1 he with he | he
      · exact (hx.depth_le e he).trans (le_max_left m n)
      · exact (hy.depth_le e he).trans (le_max_right m n)
    · rw [hx.uncut limit (le_of_max_le_left hle), Traced.bind_of_ok hres,
        hy.uncut limit (le_of_max_le_right hle)]
    · by_cases hlt' : limit < m
      · obtain ⟨hcut, hevents, hdepth⟩ := hx.cut limit hlt'
        rw [Traced.bind_of_error hcut]
        exact ⟨rfl, hevents.trans (List.prefix_append _ _), hdepth⟩
      · have hle : m ≤ limit := Nat.not_lt.1 hlt'
        obtain ⟨hcut, hevents, hdepth⟩ := hy.cut limit ((lt_max_iff.1 hlt).resolve_left hlt')
        rw [hx.uncut limit hle, Traced.bind_of_ok hres]
        refine ⟨hcut, (List.prefix_append_right_inj _).2 hevents, fun e he => ?_⟩
        rcases List.mem_append.1 he with he | he
        · exact (hx.depth_le e he).trans hle
        · exact hdepth e he

/-- The guard in front of a fragment has the depth as its threshold. -/
theorem emitWithin {e : Event} (hb : e.depth ≤ bound) : HasThreshold bound (emitWithin e) := by
  refine ⟨e.depth, hb, .emit e, fun limit h => ?_, by simp [Traced.emit], fun limit hle => ?_,
    fun limit hlt => ?_⟩
  · cases h
  · exact if_neg (Nat.not_lt.2 hle)
  · rw [Reckoner.emitWithin, if_pos hlt]
    exact ⟨rfl, List.nil_prefix, by simp [Traced.fail]⟩

end HasThreshold

theorem readLiteral_ne_depthExceeded (w : Fragment) (limit : Nat) :
    readLiteral w ≠ .error (.depthExceeded limit) := by
  rw [readLiteral]
  split <;> simp

theorem applyFunction_ne_depthExceeded (name : List Char) (x : Binary64) (limit : Nat) :
    applyFunction name x ≠ .error (.depthExceeded limit) := by
  rw [applyFunction]
  split <;> simp

/-- What is done with a recognized fragment has a threshold if the runs over the parts have. -/
theorem hasThreshold_runCapture {depth : Nat} {c : Capture}
    (ih : ∀ p ∈ c.parts, HasThreshold bound fun limit => run limit (depth + 1) p) :
    HasThreshold bound fun limit => runCapture limit depth c := by
  cases c with
  | literal value => exact .ofExcept (readLiteral_ne_depthExceeded value)
  | call name argument =>
    refine (ih argument (by simp [Capture.parts])).bind fun x => ?_
    exact .ofExcept (applyFunction_ne_depthExceeded name x)
  | group inner => exact ih inner (by simp [Capture.parts])
  | binary left op right =>
    refine (ih left (by simp [Capture.parts])).bind fun a => ?_
    refine (ih right (by simp [Capture.parts])).bind fun b => ?_
    exact .ofExcept (by simp)

/-- Runs have thresholds, since every part is shorter by a character at least. -/
theorem hasThreshold_run (depth : Nat) (text : Fragment) :
    HasThreshold (depth + (trim text).length) fun limit => run limit depth text := by
  induction text using Fragment.inductionOnParts generalizing depth with
  | step text ih =>
    cases hc : Fragment.classify (trim text) with
    | none =>
      refine ⟨depth, Nat.le_add_right _ _, .fail (.noMatchingRule (trim text)), by simp [Traced.fail],
        by simp [Traced.fail], fun limit hle => run_of_classify_eq_none hle hc, fun limit hlt => ?_⟩
      rw [run_of_lt hlt]
      exact ⟨rfl, List.nil_prefix, by simp [Traced.fail]⟩
    | some c =>
      have parts : ∀ p ∈ c.parts,
          HasThreshold (depth + (trim text).length) fun limit => run limit (depth + 1) p := by
        intro p hp
        have hshort := Fragment.length_lt_of_classify hc p hp
        have htrim := length_trim_le p
        exact (ih c hc p hp (depth + 1)).mono (by omega)
      simp only [run_eq_bind hc]
      have guard : HasThreshold (depth + (trim text).length) (emitWithin ⟨c, trim text, depth⟩) :=
        .emitWithin (Nat.le_add_right _ _)
      exact guard.bind fun _ => hasThreshold_runCapture parts

/-- **The limit only cuts.** Each text has one threshold, at most its length, one result and one list
of events: from the threshold on a run gives just these, and below it breaks off with an initial
piece of the events.  So a result other than for the depth stays when the limit is raised, and no
fragment lies deeper than the text is long. -/
theorem exists_threshold (text : Fragment) :
    (∃ need ≤ (trim text).length, ∃ result events,
      (∀ limit, result ≠ .error (.depthExceeded limit)) ∧ ∀ limit,
        (need ≤ limit → trace text limit = ⟨events, result⟩) ∧
        (limit < need → (trace text limit).result = .error (.depthExceeded limit) ∧
          (trace text limit).events <+: events ∧
            ∀ e ∈ (trace text limit).events, e.depth ≤ limit)) ∧
    (∀ limit limit', limit ≤ limit' → evaluate text limit ≠ .error (.depthExceeded limit) →
      evaluate text limit' = evaluate text limit) ∧
    ∀ limit, ∀ e ∈ (trace text limit).events, e.depth ≤ (trim text).length := by
  obtain ⟨need, hneed, whole, hcut⟩ := hasThreshold_run 0 text
  rw [Nat.zero_add] at hneed
  refine ⟨⟨need, hneed, whole.result, whole.events, hcut.result_ne, fun limit =>
    ⟨hcut.uncut limit, hcut.cut limit⟩⟩, fun limit limit' hle hne => ?_, fun limit e he => ?_⟩
  · have hge : need ≤ limit := Nat.not_lt.1 fun hlt => hne (hcut.cut limit hlt).1
    rw [evaluate, evaluate, trace, trace, hcut.uncut limit hge, hcut.uncut limit' (hge.trans hle)]
  · by_cases hlt : limit < need
    · exact ((hcut.cut limit hlt).2.2 e he).trans (hlt.le.trans hneed)
    · rw [trace, hcut.uncut limit (Nat.not_lt.1 hlt)] at he
      exact (hcut.depth_le e he).trans hneed

end Reckoner
