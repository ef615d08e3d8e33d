import Scriptlet.Proofs.Derivation.Productions
import Scriptlet.Proofs.Lexing.Extend

/-!
# Statements in a row

A statement ends in a semicolon or a closing brace.  Nothing that comes behind it can change it but
an `else`, and its last token stays the same token whatever text follows (`From.detach`).  So
programs can be put one behind the other, and to read the first of them leaves a reader where the
second begins (`Parse.program_past`).
-/

namespace Scriptlet

/-- What may come next is the same behind tokens that are there in both cases. -/
theorem NextNot.append_mono {kinds : TokenKind → Prop} {rest others : List Token}
    (allowed : NextNot kinds rest → NextNot kinds others) (used : List Token) :
    NextNot kinds (used ++ rest) → NextNot kinds (used ++ others) := by
  cases used with
  | nil => exact allowed
  | cons token used => exact fun next => next

/-- The last of the tokens, if there is one, ends by itself. -/
def Closed (used : List Token) : Prop := ∀ token ∈ used.getLast?, token.kind.endsItself = true

namespace Closed

variable {used behind : List Token}

theorem nil : Closed [] := by
  rintro token ⟨⟩

/-- Only the last tokens matter. -/
theorem after (closed : Closed behind) (some : behind ≠ []) (used : List Token) :
    Closed (used ++ behind) := by
  intro token member
  rw [List.getLast?_append, List.getLast?_eq_some_getLast some, Option.some_or] at member
  apply closed token
  rw [List.getLast?_eq_some_getLast some]
  exact member

theorem append (closed : Closed used) (further : Closed behind) : Closed (used ++ behind) := by
  cases behind with
  | nil => rwa [List.append_nil]
  | cons token behind => exact further.after (List.cons_ne_nil _ _) used

theorem concat {closing : Token} (ends : closing.kind.endsItself = true) (used : List Token) :
    Closed (used ++ [closing]) := by
  refine after ?_ (List.cons_ne_nil _ _) used
  rintro token ⟨⟩
  exact ends

end Closed

namespace Part

/-- The part ends in a token of its own, if it has any: an expression in parentheses, a statement,
or a row of these. -/
def Delimited : Part → Prop
  | .group _ | .statement _ | .alternatives _ | .statements _ => True
  | .expression .. | .operand _ | .joined .. => False

namespace From

variable {part : Part} {levels : Nat} {tokens middle rest used : List Token}

/-- A statement has tokens. -/
theorem used_ne_nil {statement : Statement}
    (derives : (Part.statement statement).From levels (used ++ rest) rest) : used ≠ [] := by
  rintro rfl
  exact absurd derives.length_lt (Nat.lt_irrefl _)

/-- The tokens of a delimited part end in one that ends by itself, and anything may follow them that
is no `else`, or an `else` if there was one. -/
theorem detach (derives : part.From levels tokens rest) (delimited : part.Delimited) :
    ∃ used, tokens = used ++ rest ∧ Closed used ∧
      ∀ others, (NextNot (· = .elseWord) rest → NextNot (· = .elseWord) others) →
        part.From levels (used ++ others) others := by
  induction derives with
  -- These end because of what follows, so nothing can be said about other tokens behind them.
  | literal | name | call | unary | grouped | last | further | expression => cases delimited
  | @group _ opening closing _ _ rest opens inner closes _ =>
      rcases inner.replace with ⟨used, rfl, moved⟩
      refine ⟨opening :: used ++ [closing], by simp, .concat (by rw [closes]; rfl) _, ?_⟩
      intro others _
      simpa using group opens (moved (closing :: others) (.cons closing rest others)) closes
  | @assignment _ target equals closing _ _ rest named sets given closes _ =>
      rcases given.replace with ⟨used, rfl, moved⟩
      refine ⟨target :: equals :: used ++ [closing], by simp, .concat (by rw [closes]; rfl) _, ?_⟩
      intro others _
      have again := moved (closing :: others) (.cons closing rest others)
      simpa using assignment named sets again closes
  | @block _ opening closing _ _ rest opens inner closes _ =>
      rcases inner.replace with ⟨used, rfl, moved⟩
      refine ⟨opening :: used ++ [closing], by simp, .concat (by rw [closes]; rfl) _, ?_⟩
      intro others _
      simpa using block opens (moved (closing :: others) (.cons closing rest others)) closes
  | @conditional _ start _ _ _ _ _ _ rest begins _ first _ askedIH firstIH othersIH =>
      rcases askedIH trivial with ⟨ahead, rfl, _, asked⟩
      rcases firstIH trivial with ⟨inside, rfl, closed, branch⟩
      rcases othersIH trivial with ⟨behind, rfl, further, chain⟩
      have ends : Closed (start :: ahead ++ (inside ++ behind)) :=
        (closed.append further).after (by simp [first.used_ne_nil]) _
      refine ⟨_, by simp, ends, fun others allowed => ?_⟩
      have shifted := NextNot.append_mono allowed behind
      simpa using conditional begins (asked _ (NextNot.append_mono shifted inside))
        (branch _ shifted) (chain others allowed)
  | @loop _ start _ _ _ _ rest begins _ repeats askedIH bodyIH =>
      rcases askedIH trivial with ⟨ahead, rfl, _, asked⟩
      rcases bodyIH trivial with ⟨inside, rfl, closed, body⟩
      have ends : Closed (start :: ahead ++ inside) := closed.after repeats.used_ne_nil _
      refine ⟨_, by simp, ends, fun others allowed => ?_⟩
      simpa using loop begins (asked _ (NextNot.append_mono allowed inside)) (body others allowed)
  | nothing ends => exact ⟨[], rfl, .nil, fun others allowed => .nothing (allowed ends)⟩
  | @otherwise _ start _ _ rest begins bare inner ih =>
      rcases ih trivial with ⟨inside, rfl, closed, branch⟩
      have ends : Closed ([start] ++ inside) := closed.after inner.used_ne_nil _
      refine ⟨_, by simp, ends, fun others allowed => ?_⟩
      have still : NextNot (· = .ifWord) (inside ++ others) := by
        cases inside with
        | nil => exact absurd rfl inner.used_ne_nil
        | cons token inside => exact bare
      exact .otherwise begins still (branch others allowed)
  | @elseIf _ start second _ _ _ _ _ _ rest begins asks _ inner _ askedIH innerIH othersIH =>
      rcases askedIH trivial with ⟨ahead, rfl, _, asked⟩
      rcases innerIH trivial with ⟨inside, rfl, closed, branch⟩
      rcases othersIH trivial with ⟨behind, rfl, further, chain⟩
      have ends : Closed (start :: second :: ahead ++ (inside ++ behind)) :=
        (closed.append further).after (by simp [inner.used_ne_nil]) _
      refine ⟨_, by simp, ends, fun others allowed => ?_⟩
      have shifted := NextNot.append_mono allowed behind
      simpa using elseIf begins asks (asked _ (NextNot.append_mono shifted inside))
        (branch _ shifted) (chain others allowed)
  | nil => exact ⟨[], rfl, .nil, fun others _ => .nil⟩
  | cons _ _ innerIH othersIH =>
      rcases innerIH trivial with ⟨inside, rfl, closed, first⟩
      rcases othersIH trivial with ⟨behind, rfl, further, chain⟩
      refine ⟨inside ++ behind, by simp, closed.append further, fun others allowed => ?_⟩
      simpa using cons (first _ (NextNot.append_mono allowed behind)) (chain others allowed)

/-- Statements, and then others. -/
theorem chain {front back : List Statement}
    (first : (Part.statements front).From levels tokens middle)
    (second : (Part.statements back).From levels middle rest) :
    (Part.statements (front ++ back)).From levels tokens rest := by
  induction front generalizing tokens with
  | nil =>
      cases first
      exact second
  | cons statement front ih =>
      cases first with
      | cons inner further => exact .cons inner (ih further)

/-- No statement begins with an `else`, so no program does. -/
theorem statements_nextNot_else {body : List Statement}
    (derives : (Part.statements body).From levels tokens []) :
    NextNot (· = .elseWord) tokens := by
  cases derives with
  | nil => rintro token ⟨⟩
  | cons inner _ =>
      cases inner with
      | assignment named _ _ _ =>
          rintro token ⟨⟩ isElse
          rw [isElse] at named
          exact absurd named (by decide)
      | conditional begins _ _ _ =>
          rintro token ⟨⟩ isElse
          cases isElse.symm.trans begins
      | loop begins _ _ =>
          rintro token ⟨⟩ isElse
          cases isElse.symm.trans begins
      | block opens _ _ =>
          rintro token ⟨⟩ isElse
          cases isElse.symm.trans opens

/-- Statements have tokens, and no others have. -/
theorem isEmpty_eq {body : List Statement}
    (derives : (Part.statements body).From levels tokens []) : tokens.isEmpty = body.isEmpty := by
  cases derives with
  | nil => rfl
  | cons inner _ =>
      cases tokens with
      | nil => exact absurd inner.length_lt (Nat.not_lt_zero _)
      | cons token tokens => rfl

/-- A program in front of tokens that do not begin with an `else`. -/
theorem program_before {body : List Statement}
    (derives : (Part.statements body).From levels tokens []) {others : List Token}
    (next : NextNot (· = .elseWord) others) :
    Closed tokens ∧ (Part.statements body).From levels (tokens ++ others) others := by
  rcases derives.detach trivial with ⟨used, rfl, closed, moved⟩
  rw [List.append_nil]
  exact ⟨closed, moved others fun _ => next⟩

end From

end Part

namespace Parse

variable {ending : Except Diagnostic Token} {inner : Productions} {levels : Nat}

/-- The loop over the statements of a program, behind those that have a derivation, goes on as if it
had begun there.  If nothing is left and the stream is broken, the loop halts at the fault. -/
theorem program_past (parts : ReadsParts ending inner levels) {body : List Statement}
    {tokens rest : List Token} (derives : (Part.statements body).From levels tokens rest)
    {rounds : Nat} (enough : tokens.length < rounds) {reader : Reader}
    (reads : reader.Reads tokens ending) :
    (∃ diagnostic after, rest = [] ∧ ending = .error diagnostic ∧
        program inner rounds reader = .error (.failed diagnostic) after) ∨
      ∃ later after, rest.length < later ∧ after.Reads rest ending ∧
        program inner rounds reader = (do return body ++ (← program inner later)) after := by
  induction body generalizing tokens rounds reader with
  | nil =>
      cases derives
      exact .inr ⟨rounds, reader, enough, reads, by simp⟩
  | cons first body ih =>
      cases derives with
      | @cons _ _ _ _ middle _ statement further =>
          obtain ⟨rounds, rfl⟩ := Nat.exists_eq_succ_of_ne_zero (Nat.ne_zero_of_lt enough)
          have shorter := statement.length_lt
          obtain ⟨token, others, rfl⟩ := List.exists_cons_of_length_pos (Nat.zero_lt_of_lt shorter)
          obtain ⟨seen, looked, still⟩ := peek_of_current reads rfl
          have real : token.kind ≠ .endOfInput := reads.real token (.head _)
          have round : program inner (rounds + 1) reader =
              (do
                let first ← inner.statement
                return first :: (← program inner rounds)) seen := by
            simp only [program, hasTokens, peekKind, bind_assoc, pure_bind]
            rw [bind_of_ok looked, if_pos (decide_eq_true real)]
          -- The first statement is read as its derivation says, unless it looks at the fault.
          have gives := (parts.statement _).complete still statement
          rw [round]
          cases ran : inner.statement seen with
          | error halt after =>
              rw [ran] at gives
              cases gives with
              | cut nothing broken =>
                  subst nothing
                  exact .inl ⟨_, after, further.spent, broken, bind_of_error ran⟩
          | ok value after =>
              rw [ran] at gives
              cases gives with
              | done left =>
                  rw [bind_of_ok ran]
                  have fewer : middle.length < rounds := by omega
                  obtain ⟨diagnostic, last, nothing, broken, failed⟩ |
                    ⟨later, last, fits, stands, same⟩ := ih further fewer left
                  · exact .inl ⟨diagnostic, last, nothing, broken, bind_of_error failed⟩
                  · refine .inr ⟨later, last, fits, stands, ?_⟩
                    rw [bind_of_same same]
                    simp

end Parse

end Scriptlet
