import Scriptlet.Proofs.Derivation.Kept

/-!
# Where statements stand

A statement begins where the first of its tokens begins and ends where the last of them ends
(`Statement.StandsOn`).  Where a conditional ends depends on which of its branches is the last, and
on where that branch ends in turn.
-/

namespace Scriptlet

/-- The span goes from the first of the tokens to the last. -/
structure Span.Bounds (span : Span) (used : List Token) : Prop where
  first : used.head?.map (·.span.start) = some span.start
  last : used.getLast?.map (·.span.stop) = some span.stop

/-- The statement consists of the tokens: it spans from the first to the last of them, and keeps
those that trees keep. -/
structure Statement.StandsOn (statement : Statement) (used : List Token) : Prop where
  bounds : statement.span.Bounds used
  kept : statement.tokens = used.filter (·.kind.isKept)

namespace Part

/-- The part ends where the last of the tokens ends. -/
def EndsWith : Part → List Token → Prop
  | .statement value, used => used.getLast?.map (·.span.stop) = some value.span.stop
  | .alternatives value, used => used.getLast?.map (·.span.stop) = value.stop?
  | .statements values, used =>
      used.getLast?.map (·.span.stop) = values.getLast?.map (·.span.stop)
  | _, _ => True

/-- Where tokens end to which others are added. -/
theorem stop_append (used behind : List Token) :
    (used ++ behind).getLast?.map (·.span.stop) =
      (behind.getLast?.map (·.span.stop)).or (used.getLast?.map (·.span.stop)) := by
  rw [List.getLast?_append, Option.map_or]

namespace From

variable {part : Part} {levels : Nat} {tokens rest used : List Token}

/-- Conditionals and loops end where the statement ends that is last in them. -/
theorem endsWith (derives : part.From levels (used ++ rest) rest) : part.EndsWith used := by
  obtain ⟨tokens, same⟩ : ∃ tokens, tokens = used ++ rest := ⟨_, rfl⟩
  rw [← same] at derives
  induction derives generalizing used with
  | literal | name | call | unary | grouped | group | last | further | expression => exact trivial
  | @assignment _ target equals closing _ _ _ _ _ given _ _ =>
      rcases given.replace with ⟨inner, rfl, _⟩
      obtain rfl : target :: equals :: inner ++ [closing] = used :=
        List.append_cancel_right (by simpa using same)
      exact stop_append (target :: equals :: inner) [closing]
  | @conditional _ start _ branch alternatives _ _ _ _ _ asked first others _ firstIH othersIH =>
      rcases asked.replace with ⟨ahead, rfl, _⟩
      rcases first.replace with ⟨inner, rfl, _⟩
      rcases others.replace with ⟨behind, rfl, _⟩
      obtain rfl : start :: ahead ++ inner ++ behind = used :=
        List.append_cancel_right (by simpa using same)
      have firstEnds : _ = some branch.span.stop := firstIH rfl
      have othersEnd : _ = alternatives.stop? := othersIH rfl
      rw [EndsWith, stop_append, stop_append, firstEnds, othersEnd, Option.some_or]
      cases alternatives.stop? <;> rfl
  | @loop _ start _ body _ _ _ _ asked repeats _ bodyIH =>
      rcases asked.replace with ⟨ahead, rfl, _⟩
      rcases repeats.replace with ⟨inner, rfl, _⟩
      obtain rfl : start :: ahead ++ inner = used :=
        List.append_cancel_right (by simpa using same)
      have bodyEnds : _ = some body.span.stop := bodyIH rfl
      rw [EndsWith, stop_append, bodyEnds]
      rfl
  | @block _ opening closing _ _ _ _ inside _ _ =>
      rcases inside.replace with ⟨inner, rfl, _⟩
      obtain rfl : opening :: inner ++ [closing] = used :=
        List.append_cancel_right (by simpa using same)
      exact stop_append (opening :: inner) [closing]
  | nothing _ =>
      obtain rfl : [] = used := List.append_cancel_right same
      rfl
  | @otherwise _ start branch _ _ _ _ inside ih =>
      rcases inside.replace with ⟨inner, rfl, _⟩
      obtain rfl : [start] ++ inner = used := List.append_cancel_right (by simpa using same)
      have branchEnds : _ = some branch.span.stop := ih rfl
      rw [EndsWith, stop_append, branchEnds]
      rfl
  | @elseIf _ start second _ branch others _ _ _ _ _ _ asked inside further _ insideIH furtherIH =>
      rcases asked.replace with ⟨ahead, rfl, _⟩
      rcases inside.replace with ⟨inner, rfl, _⟩
      rcases further.replace with ⟨behind, rfl, _⟩
      obtain rfl : start :: second :: ahead ++ inner ++ behind = used :=
        List.append_cancel_right (by simpa using same)
      have branchEnds : _ = some branch.span.stop := insideIH rfl
      have othersEnd : _ = others.stop? := furtherIH rfl
      rw [EndsWith, stop_append, stop_append, branchEnds, othersEnd, Option.some_or,
        Alternatives.stop?]
      cases others.stop? <;> rfl
  | nil =>
      obtain rfl : [] = used := List.append_cancel_right same
      rfl
  | @cons _ first others _ _ _ inside further insideIH furtherIH =>
      rcases inside.replace with ⟨inner, rfl, _⟩
      rcases further.replace with ⟨behind, rfl, _⟩
      obtain rfl : inner ++ behind = used := List.append_cancel_right (by simpa using same)
      have firstEnds : _ = some first.span.stop := insideIH rfl
      have othersEnd : _ = others.getLast?.map (·.span.stop) := furtherIH rfl
      rw [EndsWith, stop_append, firstEnds, othersEnd, List.getLast?_cons]
      cases others.getLast? <;> rfl

/-- A statement begins where its first token begins. -/
theorem start_eq {statement : Statement}
    (derives : (Part.statement statement).From levels tokens rest) :
    tokens.head?.map (·.span.start) = some statement.span.start := by
  cases derives <;> rfl

/-- A statement stands on the tokens that it is read from. -/
theorem standsOn {statement : Statement}
    (derives : (Part.statement statement).From levels (used ++ rest) rest) :
    statement.StandsOn used := by
  have longer := derives.length_lt
  have begins := derives.start_eq
  refine ⟨⟨?_, derives.endsWith⟩, ?_⟩
  · cases used with
    | nil => exact absurd longer (Nat.lt_irrefl _)
    | cons first others => exact begins
  · exact derives.filter_used.symm

end From

end Part

/-- Every statement of a program stands on a piece of the tokens, and is what this piece means in
front of the others. -/
theorem Block.exists_standsOn {root : Block} {levels : Nat} {tokens : List Token}
    (derives : (Part.statements root.body).From levels tokens []) {node : Statement}
    (member : node ∈ root.nodes) :
    ∃ before used after, tokens = before ++ used ++ after ∧ node.StandsOn used ∧
      (Part.statement node).From levels (used ++ after) after := by
  rcases derives.of_mem_nodes member with ⟨before, own, after, rfl, inner⟩
  rw [List.append_nil] at inner
  rcases inner.replace with ⟨used, rfl, _⟩
  exact ⟨before, used, after, by simp, inner.standsOn, inner⟩

end Scriptlet
