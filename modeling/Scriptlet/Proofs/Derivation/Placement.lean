import Scriptlet.Proofs.Derivation.Extent
import Scriptlet.Proofs.Derivation.Relocate

/-!
# Spans are exact

The span of a statement marks off just the text of the statement: read on its own, this text is the
statement again, with its positions counted from where it begins.  Whatever a statement is made of
lies inside its span, and the parts that stand side by side in it follow one another
(`parse_placed`).
-/

namespace Scriptlet

namespace Span

/-- The span lies inside another one. -/
def Within (inner outer : Span) : Prop :=
  outer.start.offset ≤ inner.start.offset ∧ inner.stop.offset ≤ outer.stop.offset

/-- The span ends before another one begins. -/
def Before (span later : Span) : Prop := span.stop.offset ≤ later.start.offset

end Span

/-! ## Tokens in order -/

/-- Tokens end behind their beginning and follow one another. -/
structure InOrder (tokens : List Token) : Prop where
  forward : ∀ token ∈ tokens, token.span.start.offset ≤ token.span.stop.offset
  apart : tokens.Pairwise fun token later => token.span.Before later.span

/-- The tokens of a source are in order, as long as the offsets can be counted. -/
theorem tokenize_inOrder {source : String} {file : Option String} {tokens : List Token}
    (short : source.length < UInt32.size) (lexed : tokenize source file = .ok tokens) :
    InOrder tokens := by
  rcases Cursor.stream_ofSource lexed with ⟨rfl, ended⟩
  have covers : Covers (file.getD Cursor.unnamed) .start source.toList _ :=
    Cursor.covers_stream (Cursor.ofSource source file) ended
  constructor
  · intro token member
    rcases covers.exists_split token member with ⟨before, after, split, first, last⟩
    have length := congrArg List.length split
    rw [String.length_toList, List.length_append, List.length_append] at length
    rw [first, last, UInt32.le_iff_toNat_le]
    simp only [Place.start, Nat.zero_add]
    rw [UInt32.toNat_ofNat_of_lt' (by omega), UInt32.toNat_ofNat_of_lt' (by omega)]
    exact Nat.le_add_right _ _
  · apply covers.ordered
    rw [String.length_toList]
    simpa [Place.start] using short

namespace InOrder

variable {tokens used : List Token} {span : Span}

theorem sublist (order : InOrder tokens) (piece : used.Sublist tokens) : InOrder used :=
  ⟨fun token member => order.forward token (piece.subset member), order.apart.sublist piece⟩

/-- Tokens lie inside the span from the first of them to the last. -/
theorem within (order : InOrder used) (bounds : span.Bounds used) :
    ∀ token ∈ used, token.span.Within span := by
  rcases Option.map_eq_some_iff.mp bounds.first with ⟨first, isFirst, starts⟩
  rcases Option.map_eq_some_iff.mp bounds.last with ⟨last, isLast, stops⟩
  rcases List.head?_eq_some_iff.mp isFirst with ⟨others, fromFirst⟩
  rcases List.getLast?_eq_some_iff.mp isLast with ⟨earlier, toLast⟩
  intro token member
  rw [Span.Within, ← starts, ← stops]
  constructor
  · subst fromFirst
    rcases List.mem_cons.mp member with rfl | behind
    · exact UInt32.le_refl _
    · exact UInt32.le_trans (order.forward first (.head _))
        ((List.pairwise_cons.mp order.apart).1 token behind)
  · subst toLast
    rcases List.mem_append.mp member with ahead | same
    · exact UInt32.le_trans
        ((List.pairwise_append.mp order.apart).2.2 token ahead last (.head _))
        (order.forward last (by simp))
    · cases List.mem_singleton.mp same
      exact UInt32.le_refl _

end InOrder

namespace Span.Bounds

variable {span inner : Span} {used : List Token}

theorem exists_first (bounds : span.Bounds used) :
    ∃ token ∈ used, token.span.start = span.start := by
  rcases Option.map_eq_some_iff.mp bounds.first with ⟨token, found, same⟩
  exact ⟨token, List.mem_of_mem_head? found, same⟩

theorem exists_last (bounds : span.Bounds used) :
    ∃ token ∈ used, token.span.stop = span.stop := by
  rcases Option.map_eq_some_iff.mp bounds.last with ⟨token, found, same⟩
  exact ⟨token, List.mem_of_getLast? found, same⟩

/-- What goes from one of the tokens to another lies inside their span. -/
theorem within (bounds : span.Bounds used) (order : InOrder used) {piece : List Token}
    (own : inner.Bounds piece) (part : piece ⊆ used) : inner.Within span := by
  rcases own.exists_first with ⟨first, firstMember, starts⟩
  rcases own.exists_last with ⟨last, lastMember, stops⟩
  rw [Span.Within, ← starts, ← stops]
  exact ⟨(order.within bounds first (part firstMember)).1,
    (order.within bounds last (part lastMember)).2⟩

end Span.Bounds

/-! ## Parts side by side -/

/-- The spans stand on pieces of the tokens, one behind the other. -/
inductive SideBySide : List Span → List Token → Prop where
  | nil {tokens : List Token} : SideBySide [] tokens
  | skip {spans : List Span} {tokens : List Token} (before : List Token)
      (others : SideBySide spans tokens) : SideBySide spans (before ++ tokens)
  | cons {span : Span} {spans : List Span} {used behind : List Token}
      (first : span.Bounds used) (others : SideBySide spans behind) :
      SideBySide (span :: spans) (used ++ behind)

namespace SideBySide

variable {spans : List Span} {tokens : List Token}

/-- Each of the spans begins with one of the tokens. -/
theorem exists_first (aside : SideBySide spans tokens) :
    ∀ span ∈ spans, ∃ token ∈ tokens, token.span.start = span.start := by
  induction aside with
  | nil => simp
  | skip before _ ih =>
      intro span member
      rcases ih span member with ⟨token, found, same⟩
      exact ⟨token, List.mem_append_right before found, same⟩
  | @cons _ _ used _ first _ ih =>
      refine List.forall_mem_cons.mpr ⟨?_, ?_⟩
      · rcases first.exists_first with ⟨token, found, same⟩
        exact ⟨token, List.mem_append_left _ found, same⟩
      · intro span member
        rcases ih span member with ⟨token, found, same⟩
        exact ⟨token, List.mem_append_right used found, same⟩

/-- Spans on tokens that are in order follow one another. -/
theorem pairwise (aside : SideBySide spans tokens) (order : InOrder tokens) :
    spans.Pairwise Span.Before := by
  induction aside with
  | nil => exact .nil
  | skip before _ ih => exact ih (order.sublist (List.sublist_append_right _ _))
  | cons first others ih =>
      have later := order.sublist (List.sublist_append_right _ _)
      refine List.pairwise_cons.mpr ⟨fun other member => ?_, ih later⟩
      rcases first.exists_last with ⟨token, inUsed, stops⟩
      rcases others.exists_first other member with ⟨next, inBehind, starts⟩
      rw [Span.Before, ← stops, ← starts]
      exact (List.pairwise_append.mp order.apart).2.2 token inUsed next inBehind

end SideBySide

/-- The spans of the clauses of a conditional and of its last branch. -/
def Alternatives.sections (alternatives : Alternatives) : List Span :=
  alternatives.clauses.map (·.span) ++ alternatives.last?.toList.map Statement.span

/-- The spans of what stands side by side in a statement. -/
def Statement.sections : Statement → List Span
  | .block body _ => body.map Statement.span
  | .assignment .. => []
  | .conditional _ branch alternatives _ => branch.span :: alternatives.sections
  | .loop _ body _ => [body.span]

/-- The clause consists of the tokens.  It spans from its `else` to where its branch ends. -/
structure ElseIf.StandsOn (clause : ElseIf) (used : List Token) : Prop where
  begins : ∃ start second others, used = start :: second :: others ∧
    start.kind = .elseWord ∧ second.kind = .ifWord
  bounds : clause.span.Bounds used
  stops : clause.span.stop = clause.branch.span.stop
  kept : clause.condition.tokens ++ clause.branch.tokens = used.filter (·.kind.isKept)

namespace Part.From

variable {levels : Nat} {tokens rest : List Token}

theorem statements_sideBySide {body : List Statement}
    (derives : (Part.statements body).From levels tokens rest) :
    SideBySide (body.map Statement.span) tokens := by
  induction body generalizing tokens with
  | nil => exact .nil
  | cons first others ih =>
      cases derives with
      | cons inner further =>
          rcases inner.replace with ⟨used, rfl, _⟩
          exact .cons inner.standsOn.bounds (ih further)

/-- The first clause of a conditional stands on the tokens from its `else` to the end of its
branch. -/
theorem clause_standsOn {start second : Token} {condition : Expression} {branch : Statement}
    {ahead inner behind : List Token} (begins : start.kind = .elseWord)
    (asks : second.kind = .ifWord)
    (asked : (Part.group condition).From levels (ahead ++ (inner ++ behind)) (inner ++ behind))
    (within : (Part.statement branch).From levels (inner ++ behind) behind) :
    (ElseIf.mk condition branch ⟨start.span.start, branch.span.stop⟩).StandsOn
      (start :: second :: ahead ++ inner) := by
  have stands := within.standsOn
  refine ⟨⟨start, second, ahead ++ inner, rfl, begins, asks⟩, ⟨rfl, ?_⟩, rfl, ?_⟩
  · rw [stop_append, stands.bounds.last, Option.some_or]
  · have condition : _ = condition.tokens := asked.filter_used
    have outside : ∀ kind ∈ [TokenKind.elseWord, .ifWord], kind.isKept = false := by decide
    rw [List.filter_append, ← stands.kept, ← condition]
    simp [earlier, begins, asks, outside]

/-- The clauses of a conditional stand side by side, and its last branch behind them. -/
theorem alternatives_sideBySide {alternatives : Alternatives}
    (derives : (Part.alternatives alternatives).From levels tokens rest) :
    SideBySide alternatives.sections tokens := by
  fun_induction Alternatives.clauses alternatives generalizing tokens with
  | case1 => exact .nil
  | case2 branch =>
      cases derives with
      | @otherwise _ start _ _ _ begins bare inner =>
          rcases inner.replace with ⟨used, rfl, _⟩
          exact .skip [start] (.cons inner.standsOn.bounds .nil)
  | case3 condition branch span others ih =>
      cases derives with
      | @elseIf _ start second _ _ _ _ _ _ _ begins asks asked inner further =>
          rcases asked.replace with ⟨ahead, rfl, _⟩
          rcases inner.replace with ⟨used, rfl, _⟩
          have stands := clause_standsOn begins asks asked inner
          have aside := SideBySide.cons stands.bounds (ih further)
          rwa [List.append_assoc] at aside

theorem clauses_standOn {alternatives : Alternatives}
    (derives : (Part.alternatives alternatives).From levels tokens rest) :
    ∀ clause ∈ alternatives.clauses, ∃ before used after,
      tokens = before ++ used ++ (after ++ rest) ∧ clause.StandsOn used := by
  fun_induction Alternatives.clauses alternatives generalizing tokens with
  | case1 | case2 => simp
  | case3 condition branch span others ih =>
      cases derives with
      | @elseIf _ start second _ _ _ _ _ _ _ begins asks asked inner further =>
          rcases asked.replace with ⟨ahead, rfl, _⟩
          rcases inner.replace with ⟨used, rfl, _⟩
          rcases further.replace with ⟨behind, rfl, _⟩
          refine List.forall_mem_cons.mpr ⟨?_, ?_⟩
          · exact ⟨[], start :: second :: ahead ++ used, behind, by simp,
              clause_standsOn begins asks asked inner⟩
          · intro clause member
            rcases ih further clause member with ⟨before, own, after, split, stands⟩
            refine ⟨start :: second :: ahead ++ used ++ before, own, after, ?_, stands⟩
            simp [split]

end Part.From

/-! ## Statements at their places -/

/-- What the span of a statement says about a source: read alone, the slice is the statement; the
statement consists of a piece of the tokens, and these, the clauses and all statements in it lie
inside its span; what stands side by side in it follows one another. -/
structure Statement.Placed (source : String) (file : Option String) (tokens : List Token)
    (statement : Statement) : Prop where
  alone : ∃ span, parse (String.ofList (statement.span.slice source)) file =
    .ok ⟨[statement.relocate (·.relativeTo statement.span.start)], span⟩
  piece : ∃ before used after, tokens = before ++ used ++ after ∧ statement.StandsOn used ∧
    (∀ token ∈ used, token.span.Within statement.span) ∧
    ∀ clause ∈ statement.clauses, ∃ front own behind, used = front ++ own ++ behind ∧
      clause.StandsOn own
  inside : ∀ inner ∈ statement.nodes, inner.span.Within statement.span
  ordered : statement.sections.Pairwise Span.Before

namespace Part.From

variable {levels : Nat} {used after : List Token} {statement : Statement}

/-- What stands side by side in a statement. -/
theorem sections_sideBySide (derives : (Part.statement statement).From levels used after) :
    SideBySide statement.sections used := by
  cases derives with
  | assignment => exact .nil
  | @conditional _ start _ _ _ _ _ _ _ _ asked first others =>
      rcases asked.replace with ⟨ahead, rfl, _⟩
      rcases first.replace with ⟨inner, rfl, _⟩
      exact .skip (start :: ahead) (.cons first.standsOn.bounds others.alternatives_sideBySide)
  | @loop _ start _ _ _ _ _ _ asked repeats =>
      rcases asked.replace with ⟨ahead, rfl, _⟩
      rcases repeats.replace with ⟨inner, rfl, _⟩
      exact .skip (start :: ahead) (.cons repeats.standsOn.bounds .nil)
  | @block _ opening _ _ _ _ _ inner _ => exact .skip [opening] inner.statements_sideBySide

/-- The clauses of a statement stand on pieces of its tokens. -/
theorem clauses_inside (derives : (Part.statement statement).From levels (used ++ after) after) :
    ∀ clause ∈ statement.clauses, ∃ front own behind, used = front ++ own ++ behind ∧
      clause.StandsOn own := by
  obtain ⟨tokens, same⟩ : ∃ tokens, tokens = used ++ after := ⟨_, rfl⟩
  rw [← same] at derives
  cases derives with
  | assignment | loop | block =>
      intro clause member
      cases member
  | @conditional _ start _ _ _ _ _ _ _ _ asked first others =>
      rcases asked.replace with ⟨ahead, rfl, _⟩
      rcases first.replace with ⟨inner, rfl, _⟩
      intro clause member
      rcases others.clauses_standOn clause member with ⟨before, own, behind, rfl, stands⟩
      refine ⟨start :: ahead ++ inner ++ before, own, behind, ?_, stands⟩
      exact List.append_cancel_right (same.symm.trans (by simp))

/-- Everything in a statement stands on pieces of its tokens. -/
theorem nodes_inside (derives : (Part.statement statement).From levels (used ++ after) after) :
    ∀ inner ∈ statement.nodes, ∃ own, own ⊆ used ∧ inner.StandsOn own := by
  intro inner member
  rcases derives.of_mem_nodes member with ⟨before, tokens, behind, split, reads⟩
  rcases reads.replace with ⟨own, rfl, _⟩
  obtain rfl : used = before ++ own ++ behind :=
    List.append_cancel_right (split.trans (by simp))
  exact ⟨own, fun token found => by simp [found], reads.standsOn⟩

end Part.From

/-- The statement of a slice is the statement, counted from where the slice begins. -/
theorem parse_slice {source : String} {file : Option String} {before used after : List Token}
    {statement : Statement} (short : source.length < UInt32.size - 1)
    (lexed : tokenize source file = .ok (before ++ used ++ after))
    (derives : (Part.statement statement).From Parse.nestingLimit (used ++ after) after) :
    ∃ span, parse (String.ofList (statement.span.slice source)) file =
      .ok ⟨[statement.relocate (·.relativeTo statement.span.start)], span⟩ := by
  have bounds := derives.standsOn.bounds
  have sliced := tokenize_slice short lexed bounds.first bounds.last
  obtain ⟨own, same, cut⟩ := derives.replace
  obtain rfl := List.append_cancel_right same
  have alone := (cut [] (.nil after)).relocate (·.relativeTo statement.span.start)
  rw [List.append_nil] at alone
  exact ⟨_, parse_ok_iff.mpr ⟨_, sliced, .cons alone .nil, rfl⟩⟩

/-- Every statement of a program stands where its span says, and so does the program itself. -/
theorem parse_placed {source : String} {file : Option String} {root : Block}
    (short : source.length < UInt32.size - 1) (read : parse source file = .ok root) :
    ∃ tokens, tokenize source file = .ok tokens ∧
      (∀ node ∈ root.nodes, node.Placed source file tokens) ∧
      (root.body.map Statement.span).Pairwise Span.Before ∧
      root.span = ⟨Place.start.inFile (file.getD Cursor.unnamed),
        (root.body.getLast?.map (·.span.stop)).getD
          (Place.start.inFile (file.getD Cursor.unnamed))⟩ := by
  rcases parse_ok_iff.mp read with ⟨tokens, lexed, derives, span⟩
  have order := tokenize_inOrder (Nat.lt_of_lt_of_le short (Nat.sub_le _ _)) lexed
  refine ⟨tokens, lexed, fun node member => ?_, derives.statements_sideBySide.pairwise order, ?_⟩
  · rcases Block.exists_standsOn derives member with ⟨before, used, after, rfl, stands, own⟩
    have later : InOrder (used ++ after) := order.sublist (by simp)
    have here : InOrder used := later.sublist (List.sublist_append_left _ _)
    constructor
    · exact parse_slice short lexed own
    · exact ⟨before, used, after, rfl, stands, here.within stands.bounds, own.clauses_inside⟩
    · intro inner inside
      rcases own.nodes_inside inner inside with ⟨piece, part, placed⟩
      exact stands.bounds.within here placed.bounds part
    · exact own.sections_sideBySide.pairwise later
  · rw [← List.append_nil tokens] at derives
    have ends : _ = root.body.getLast?.map (·.span.stop) := derives.endsWith
    rw [span, ← ends]
    rfl

/-- A block on several lines, in front of an `else` that the cut leaves out. -/
theorem parse_placed_block :
    ∃ root tokens, parse "$n = 0;\nif ($a) \x7b\n  $x = 1;\n\x7d else $y = 2;" none = .ok root ∧
      tokenize "$n = 0;\nif ($a) \x7b\n  $x = 1;\n\x7d else $y = 2;" none = .ok tokens ∧
      (∃ node ∈ root.nodes, node.rule = .block ∧
        node.Placed "$n = 0;\nif ($a) \x7b\n  $x = 1;\n\x7d else $y = 2;" none tokens) ∧
      (root.body.map Statement.span).Pairwise Span.Before ∧
      root.span = ⟨Place.start.inFile Cursor.unnamed,
        (root.body.getLast?.map (·.span.stop)).getD (Place.start.inFile Cursor.unnamed)⟩ := by
  have found :
      (parse "$n = 0;\nif ($a) \x7b\n  $x = 1;\n\x7d else $y = 2;" none).toOption.any
        (fun root => root.nodes.any fun node => node.rule = .block) = true := by
    decide +kernel
  cases read : parse "$n = 0;\nif ($a) \x7b\n  $x = 1;\n\x7d else $y = 2;" none with
  | error halt =>
      rw [read] at found
      cases found
  | ok root =>
      rw [read] at found
      rcases List.any_eq_true.mp found with ⟨node, member, block⟩
      rcases parse_placed (by decide) read with ⟨tokens, lexed, placed, ordered, span⟩
      exact ⟨root, tokens, rfl, lexed, ⟨node, member, of_decide_eq_true block, placed node member⟩,
        ordered, span⟩

end Scriptlet
