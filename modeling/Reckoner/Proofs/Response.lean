import Reckoner.CommandLine.Response
import Reckoner.Proofs.Arrangement
import Reckoner.Proofs.Derivation

/-!
# Answers to a command line

What the program answers depends on the text that it evaluates and on the limit.  It does not matter
how the arguments are arranged, nor whether the text is an argument or the contents of a file, and
the log has the events if it is wished for.
-/

namespace Reckoner

/-- What a run of the program with these arguments leaves behind. -/
def respondTo (readFile : String → Option ByteArray) (filter : Option String)
    (arguments : List String) : Except UsageError Response :=
  (Request.ofArguments arguments).map (·.respond readFile filter)

/-- Is the text the contents of the command, or of the file that the command names? -/
def Supplies (readFile : String → Option ByteArray) (c : Command) (text : String) : Prop :=
  if c.fromFile then readFile c.contents = some text.toUTF8 else c.contents = text

variable {readFile : String → Option ByteArray} {c : Command} {text : String}

theorem fromUTF8?_toUTF8 (text : String) : String.fromUTF8? text.toUTF8 = some text :=
  dif_pos text.isValidUTF8

theorem Supplies.text?_eq (h : Supplies readFile c text) :
    c.text? (readFile c.contents) = some text := by
  rw [Supplies] at h
  rw [Command.text?]
  by_cases hfile : c.fromFile
  · rw [if_pos hfile] at h ⊢
    rw [h, Option.bind_some, fromUTF8?_toUTF8]
  · rw [if_neg hfile] at h ⊢
    rw [h]

/-- A command that is arranged in the arguments answers the text that it supplies. -/
theorem respondTo_of_arranged {filter : Option String} {arguments : List String}
    (h : Arranged c arguments) (hc : Supplies readFile c text) :
    respondTo readFile filter arguments = .ok (c.answer filter text) := by
  rw [respondTo, ofArguments_eq_ok_iff.2 h]
  simp only [Except.map, Request.respond, Command.respond, hc.text?_eq]

/-- Without a filter, the wish for the log decides about the log and about nothing else. -/
theorem Command.answer_eq (c : Command) (text : String) :
    c.answer none text =
      { (Command.mk text false false c.limit).answer none text with
        log := if c.verbose then
          (trace text.toList c.limit).events.map fun e => .ofList e.line else [] } := by
  rw [answer, answer]
  cases (trace text.toList c.limit).result <;> rfl

/-- **One answer for a text and a limit.** Exactly the argument lists in which a command is arranged
are read as this command, and all of them have the same answer as long as the text and the limit are
the same: code 0 with the value if there is one, else code 1 with the message.  Only the log tells
whether it was wished for: it then has one line for each event, in order, and otherwise none. -/
theorem exists_response (readFile : String → Option ByteArray) (text : String) (limit : Nat) :
    (∀ c arguments, Arranged c arguments ↔
      Request.ofArguments arguments = .ok (.evaluate c)) ∧
    ∃ r : Response,
      (∀ c arguments, Arranged c arguments → c.limit = limit → Supplies readFile c text →
        respondTo readFile none arguments = .ok { r with
          log := if c.verbose then
            (trace text.toList limit).events.map fun e => .ofList e.line else [] }) ∧
      (r.code = 0 ↔ ∃ v, evaluate text.toList limit = .ok v) ∧
      (∀ v, evaluate text.toList limit = .ok v →
        r.stdout = toString v ++ "\n" ∧ r.stderr = "") ∧
      ∀ e, evaluate text.toList limit = .error e →
        r.code = 1 ∧ r.stdout = "" ∧ r.stderr = .ofList e.message ++ "\n" := by
  refine ⟨fun c arguments => ofArguments_eq_ok_iff.symm,
    (Command.mk text false false limit).answer none text, ?_, ?_⟩
  · rintro c arguments harranged rfl hsupplies
    rw [respondTo_of_arranged harranged hsupplies, Command.answer_eq]
  · rw [Command.answer, evaluate]
    cases (trace text.toList limit).result with
    | ok v => simp
    | error e => simp

/-- A negative number behind two dashes, and out of a file. -/
theorem exists_response_negative :
    Arranged ⟨"-2", false, true, 9⟩ ["--max-depth=+9", "-v", "--", "-2"] ∧
    Arranged ⟨"two", true, true, 9⟩ ["-vf", "two", "--max-depth", "09"] ∧
    ∃ r : Response,
      respondTo (fun _ => some "-2".toUTF8) none ["--max-depth=+9", "-v", "--", "-2"] = .ok r ∧
      respondTo (fun _ => some "-2".toUTF8) none ["-vf", "two", "--max-depth", "09"] = .ok r ∧
      r.code = 0 := by
  have nine : WritesNatural "+9" 9 ∧ WritesNatural "09" 9 :=
    ⟨⟨['+'], ['9'], .inr rfl, by decide, List.all_eq_true.1 rfl, rfl, by decide, by decide⟩,
      ⟨[], ['0', '9'], .inl rfl, by decide, List.all_eq_true.1 rfl, rfl, by decide, by decide⟩⟩
  have hdirect : Arranged ⟨"-2", false, true, 9⟩ ["--max-depth=+9", "-v", "--", "-2"] :=
    ⟨_, .argument (.limit nine.1) <| .argument (@Argument.letters [.verbose] (by decide)) <|
      .dashes ["-2"], rfl, rfl, rfl, .inr rfl⟩
  have hfile : Arranged ⟨"two", true, true, 9⟩ ["-vf", "two", "--max-depth", "09"] := by
    refine ⟨_, .argument (@Argument.letters [.verbose, .file] (by decide)) <|
      .argument (.contents ?_) <| .limit nine.2 .nil, rfl, rfl, rfl, .inr rfl⟩
    rintro ⟨_, _, h⟩
    cases h
  obtain ⟨-, r, hr, hcode, -⟩ := exists_response (fun _ => some "-2".toUTF8) "-2" 9
  let two : Numeral := ⟨.minus, ['2'], none, by decide, List.all_eq_true.1 rfl, by simp⟩
  have hvalue : evaluate "-2".toList 9 = .ok two.value := two.evaluate_text 9
  exact ⟨hdirect, hfile, _, hr ⟨"-2", false, true, 9⟩ _ hdirect rfl rfl,
    hr ⟨"two", true, true, 9⟩ _ hfile rfl rfl, hcode.2 ⟨_, hvalue⟩⟩

end Reckoner
