import Scriptlet.Proofs.Layout.Pairing
import Scriptlet.Proofs.Derivation.Productions
import Scriptlet.Proofs.Session.Lookahead

/-!
# Layout does not matter

How the tokens of a source are spread over lines, and what the source is called, shows in positions
and nowhere else.  Two sources with the same kinds and values of tokens are both programs, with
trees that are equal once positions are erased, or they are both wrong, for the same cause and at
the same token (`parse_layout`).
-/

namespace Scriptlet

/-- The position with everything that it says left out. -/
def Position.erased (_ : Position) : Position := ⟨0, 0, 0, ""⟩

/-- The program with all its spans and positions erased. -/
def Block.unplaced (block : Block) : Block := block.relocate Position.erased

/-- The content of a token is all that is left of it without positions. -/
theorem Token.relocate_erased_eq_iff {token other : Token} :
    token.relocate Position.erased = other.relocate Position.erased ↔
      token.content = other.content := by
  simp [Token.relocate, Span.relocate, Position.erased, Token.content]

/-- The token with a number has the content with that number.  At the end of the input it does not
depend on what the source is called. -/
theorem content_upcoming (file : Option String) (tokens : List Token) (index : Nat) :
    (upcoming file tokens index).content =
      (tokens.map Token.content).getD index (.endOfInput, "EOF") := by
  rw [upcoming, List.getD_eq_getElem?_getD, List.getD_eq_getElem?_getD, List.getElem?_map,
    ← Option.getD_map Token.content]
  rfl

/-- A reader at the start of a source is going to see all its tokens by number. -/
theorem Reader.Reads.numbered {source : String} {file : Option String} {tokens : List Token}
    (lexed : tokenize source file = .ok tokens) :
    (Reader.ofSource source file).Reads
      ((List.range tokens.length).map (upcoming file tokens))
      (.ok (upcoming file tokens tokens.length)) := by
  have all : (List.range tokens.length).map (upcoming file tokens) = tokens := by
    apply List.ext_getElem
    · simp
    · intro index _ bound
      simp [upcoming, bound]
  have last : upcoming file tokens tokens.length = .closing file tokens := by
    simp [upcoming]
  rw [all, last]
  exact .ofSource lexed

namespace Pairing

variable {tokens others : List Token}

/-- Two sources with the same content have their tokens in common by number. -/
def byNumber (file otherFile : Option String)
    (same : tokens.map Token.content = others.map Token.content) : Pairing Nat where
  shown
    | true => upcoming file tokens
    | false => upcoming otherFile others
  move _ := Position.erased
  same index := by
    refine ⟨(upcoming file tokens index).relocate Position.erased, funext fun member => ?_⟩
    rw [Token.relocate_erased_eq_iff]
    cases member with
    | true => rfl
    | false => rw [content_upcoming, content_upcoming, same]

/-- At the start of the sources, two readers are going to see all the tokens that they have in
common. -/
theorem byNumber_reads {source other : String} {file otherFile : Option String}
    (same : tokens.map Token.content = others.map Token.content)
    (lexed : tokenize source file = .ok tokens)
    (lexedOther : tokenize other otherFile = .ok others) :
    (byNumber file otherFile same).Reads (List.range tokens.length) (.ok tokens.length)
      fun member => bif member then .ofSource source file else .ofSource other otherFile := by
  have length : tokens.length = others.length := by
    simpa using congrArg List.length same
  intro member
  cases member with
  | true => exact .numbered lexed
  | false =>
      have all := Reader.Reads.numbered lexedOther
      rw [← length] at all
      exact all

/-- If all positions are moved to one place, whole programs run in step, wherever they begin. -/
theorem programBlock_inStep {ι : Type} {pairing : Pairing ι} {ending : Ending ι} {count : Nat}
    (onePlace : ∀ points : Bool → Position, Uniform fun member =>
      pairing.move member (points member))
    (limit levels : Nat) :
    (pairing.lockstep ending).Holds (.behind count) count pairing.likeness.Whole fun _ =>
      Parse.programBlock (.within limit levels) :=
  (pairing.within_inStep ending limit levels count).programBlock (fun _ => onePlace _)
    (Nat.le_refl count)

end Pairing

/-- Two sources that have the same tokens, but for positions, are the same program, but for
positions; or neither is a program, for the same cause and at the token with the same number. -/
theorem parse_layout {source other : String} {file otherFile : Option String}
    {tokens others : List Token} (lexed : tokenize source file = .ok tokens)
    (lexedOther : tokenize other otherFile = .ok others)
    (same : tokens.map Token.content = others.map Token.content) :
    (∃ root otherRoot, parse source file = .ok root ∧ parse other otherFile = .ok otherRoot ∧
        root.unplaced = otherRoot.unplaced) ∨
      ∃ cause index,
        parse source file =
            .error (.failed ⟨cause, (upcoming file tokens index).span.start⟩) ∧
          parse other otherFile =
            .error (.failed ⟨cause, (upcoming otherFile others index).span.start⟩) := by
  have reads := Pairing.byNumber_reads same lexed lexedOther
  have together := Pairing.programBlock_inStep (fun _ => .const _) Parse.nestingLimit
    Parse.nestingLimit _ ⟨_, Nat.lt_succ_self _, reads⟩
  cases together with
  | done ran _ ends =>
      exact .inl ⟨_, _, parse_of_ok (ran true), parse_of_ok (ran false),
        (Pairing.whole_relocate ends.2).eq true false⟩
  | halt ran halting =>
      obtain ⟨diagnostics, rfl, blames⟩ := halting
      cases blames with
      | item cause index =>
          exact .inr ⟨cause, index, parse_of_error (ran true), parse_of_error (ran false)⟩
      | fault broken => cases broken

/-- A conditional that breaks off behind its `else`, on one line and on three. -/
theorem parse_layout_unfinished :
    ∃ tokens others, tokenize "if($a)$b=1;else" (some "a.sg") = .ok tokens ∧
      tokenize "if ( $a )\n\t$b = 1 ;\nelse\n" none = .ok others ∧
      tokens.map Token.content = others.map Token.content ∧
      ∃ cause index,
        parse "if($a)$b=1;else" (some "a.sg") =
            .error (.failed ⟨cause, (upcoming (some "a.sg") tokens index).span.start⟩) ∧
          parse "if ( $a )\n\t$b = 1 ;\nelse\n" none =
            .error (.failed ⟨cause, (upcoming none others index).span.start⟩) := by
  have fails : (parse "if($a)$b=1;else" (some "a.sg")).isOk = false := by decide +kernel
  have lexes : (tokenize "if($a)$b=1;else" (some "a.sg")).isOk = true := by decide +kernel
  have same : (tokenize "if($a)$b=1;else" (some "a.sg")).map (·.map Token.content) =
      (tokenize "if ( $a )\n\t$b = 1 ;\nelse\n" none).map (·.map Token.content) := by
    decide +kernel
  cases lexed : tokenize "if($a)$b=1;else" (some "a.sg") with
  | error diagnostic =>
      rw [lexed] at lexes
      cases lexes
  | ok tokens =>
      cases lexedOther : tokenize "if ( $a )\n\t$b = 1 ;\nelse\n" none with
      | error diagnostic =>
          rw [lexed, lexedOther] at same
          cases same
      | ok others =>
          rw [lexed, lexedOther] at same
          have contents := Except.ok.inj same
          rcases parse_layout lexed lexedOther contents with ⟨root, otherRoot, read, _⟩ | wrong
          · rw [read] at fails
            cases fails
          · exact ⟨tokens, others, rfl, rfl, contents, wrong⟩

end Scriptlet
