import ShaderBuild.Proofs.Expansion.Separation
/-!
Openers without a closer. They keep their place among the marks when blocks are rendered and markers
replaced, and a scan goes on to find no closer for them, as long as none comes about behind them.
-/
namespace ShaderBuild.Mark

variable {kind : Char} {marks out front before after rest : List Mark} {body : Text}

/-- No closer of the kind stands among the marks, nor comes about. -/
def Unclosed (kind : Char) : List Mark → Prop
  | [] => True
  | mark :: rest =>
    (¬Text.Meet kind '>' mark.text ∧ (mark.ending? = some kind → exposed rest ≠ some '>')) ∧
      Unclosed kind rest

/-- Every opener that a `<` comes to be part of stands there already, and no closer comes about behind
it. -/
def Firm : List Mark → Prop
  | [] => True
  | mark :: rest =>
    (mark.ending? = some '<' → ∀ kind, kind = '@' ∨ kind = '!' → exposed rest = some kind →
      ∃ later, mark = .char '<' ∧ rest = .char kind :: later ∧ Unclosed kind later) ∧ Firm rest

private theorem leads_of_kind (isKind : kind = '@' ∨ kind = '!') : Leading kind :=
  .inr isKind

private theorem trails_of_kind (isKind : kind = '@' ∨ kind = '!') : Trailing kind :=
  isKind.imp_right .inl

private theorem delimits_of_kind (isKind : kind = '@' ∨ kind = '!') : Text.Delimits kind '>' :=
  .inr ⟨isKind, rfl⟩

namespace Unclosed

theorem of_append (unclosed : Unclosed kind (front ++ rest)) : Unclosed kind rest := by
  induction front with
  | nil => exact unclosed
  | cons mark front ih => exact ih unclosed.2

/-- A text without closers brings none about before what follows it. -/
theorem chars {written : Text} (plain : ¬Text.Meet kind '>' written)
    (solid : ∃ c, written.getLast? = some c ∧ c ≠ '\n' ∧ c ≠ '\r' ∧ c ≠ kind)
    (unclosed : Unclosed kind rest) : Unclosed kind (written.map .char ++ rest) := by
  obtain ⟨c, last, feed, turn, other⟩ := solid
  induction written with
  | nil => simp at last
  | cons first written ih =>
    rw [Text.meet_cons] at plain
    have single : ¬Text.Meet kind '>' (text (.char first)) := by simp [text, Text.meet_cons]
    cases written with
    | nil =>
      obtain rfl : first = c := by simpa using last
      exact ⟨⟨single, fun same => absurd (Option.some.inj same) other⟩, unclosed⟩
    | cons next written =>
      have lastToo : (next :: written).getLast? = some c := by
        simpa [List.getLast?_cons_cons] using last
      have first := exposed_chars rest ⟨c, lastToo, feed, turn⟩
      refine ⟨⟨single, fun same shown => ?_⟩, ih (fun met => plain (.inr met)) lastToo⟩
      exact plain (.inl ⟨Option.some.inj same, first.symm.trans shown⟩)

end Unclosed

private theorem text_continueBody (isKind : kind = '@' ∨ kind = '!')
    (closed : Scan.closing? kind body = none) :
    text (.marker kind (Directive.continueBody kind body)) =
      Text.continueBefore [] (text (.marker kind body)) := by
  have whole := @flat_continued [.marker kind body] (by simpa [Proper] using ⟨isKind, closed⟩)
  simpa [flat, continued] using whole

/-- Continuing the lines of a block and taking out its end brings no closer about. -/
theorem Unclosed.continued {own : Char} (isKind : kind = '@' ∨ kind = '!')
    (ends : Scan.directive own body = .functionEnd) (proper : ∀ mark ∈ front, Proper mark)
    (covers : Covers before after) (unclosed : Unclosed kind (front ++ .marker own body :: before))
    (rest : Unclosed kind after) : Unclosed kind (Mark.continued front ++ after) := by
  induction front with
  | nil => exact rest
  | cons mark front ih =>
    have others : ∀ mark ∈ front, Proper mark := fun mark member => proper mark (by simp [member])
    have later := ih others unclosed.2
    have exposes := (covers.continued ends others).exposed '>' (.inr (.inr rfl))
    cases mark with
    | char c =>
      rw [Mark.continued, List.append_assoc, Text.continueChar]
      have plain : ¬Text.Meet kind '>' [' ', '\\'] ∧ kind ≠ '\\' ∧ kind ≠ '\n' := by
        rcases isKind with rfl | rfl <;> decide
      split
      · split
        · exact later
        · refine @Unclosed.chars kind (.char '\n' :: (Mark.continued front ++ after)) _ plain.1
            ⟨'\\', rfl, by decide, by decide, plain.2.1.symm⟩ ⟨⟨?_, fun same => ?_⟩, later⟩
          · simp [text, Text.meet_cons]
          · exact absurd (Option.some.inj same) plain.2.2.symm
      · split
        · exact later
        · exact ⟨⟨unclosed.1.1, fun last shown => unclosed.1.2 last (exposes shown)⟩, later⟩
    | marker other inside =>
      obtain ⟨otherKind, closed⟩ := proper (.marker other inside) (by simp)
      have lead : kind ∉ Text.lineJoint := by rcases isKind with rfl | rfl <;> decide
      refine ⟨⟨fun met => unclosed.1.1 ?_, fun last shown => unclosed.1.2 ?_ (exposes shown)⟩, later⟩
      · rw [text_continueBody otherKind closed] at met
        exact met.of_continueBefore lead (by decide)
      · exact ending?_continueBody otherKind (leads_of_kind isKind) last

namespace Firm

theorem of_append (firm : Firm (front ++ rest)) : Firm rest := by
  induction front with
  | nil => exact firm
  | cons mark front ih => exact ih firm.2

/-- A text without openers makes none with what follows it. -/
theorem chars {written : Text} (closed : leftover? written = none)
    (solid : ∃ c, written.getLast? = some c ∧ c ≠ '\n' ∧ c ≠ '\r' ∧ c ≠ '<') (firm : Firm rest) :
    Firm (written.map .char ++ rest) := by
  obtain ⟨c, last, feed, turn, other⟩ := solid
  induction written with
  | nil => simp at last
  | cons first written ih =>
    rw [leftover?_eq_none_iff, Text.meet_cons, Text.meet_cons] at closed
    have later : leftover? written = none := leftover?_eq_none_iff.mpr (by tauto)
    cases written with
    | nil =>
      obtain rfl : first = c := by simpa using last
      exact ⟨fun angle => absurd (Option.some.inj angle) other, firm⟩
    | cons next written =>
      have last : (next :: written).getLast? = some c := by
        simpa [List.getLast?_cons_cons] using last
      have first := exposed_chars rest ⟨c, last, feed, turn⟩
      refine ⟨fun angle kind isKind shown => ?_, ih later last⟩
      obtain rfl := Option.some.inj angle
      have stands : some next = some kind := first.symm.trans shown
      obtain rfl := Option.some.inj stands
      rcases isKind with rfl | rfl <;> simp at closed

end Firm

/-- Continuing the lines of a block and taking out its end keeps openers in their place. -/
theorem Firm.continued {own : Char} (ends : Scan.directive own body = .functionEnd)
    (proper : ∀ mark ∈ front, Proper mark) (covers : Covers before after)
    (unclosed : ∀ kind, kind = '@' ∨ kind = '!' → Unclosed kind before → Unclosed kind after)
    (firm : Firm (front ++ .marker own body :: before)) (rest : Firm after) :
    Firm (Mark.continued front ++ after) := by
  induction front with
  | nil => exact rest
  | cons mark front ih =>
    have others : ∀ mark ∈ front, Proper mark := fun mark member => proper mark (by simp [member])
    have later := ih others firm.2
    have exposes {c : Char} (trails : Trailing c) := (covers.continued ends others).exposed c trails
    cases mark with
    | char c =>
      rw [Mark.continued, List.append_assoc, Text.continueChar]
      split
      · split
        · exact later
        · have closed : leftover? [' ', '\\'] = none := by decide
          exact @Firm.chars (.char '\n' :: (Mark.continued front ++ after)) _ closed
            ⟨'\\', by decide⟩ ⟨fun angle => absurd (Option.some.inj angle) (by decide), later⟩
      · split
        · exact later
        · refine ⟨fun last kind isKind shown => ?_, later⟩
          obtain ⟨behind, same, next, free⟩ :=
            firm.1 last kind isKind (exposes (trails_of_kind isKind) shown)
          -- The opener stands inside the block: its second character is not the end of it.
          cases front with
          | nil => cases (List.cons.inj next).1
          | cons second front =>
            obtain ⟨rfl, rfl⟩ := List.cons.inj next
            have inner : ¬(kind = '\n' ∨ kind = '\r') := (trails_of_kind isKind).inner
            have kept : Mark.continued (.char kind :: front) = .char kind :: Mark.continued front := by
              rw [Mark.continued, Text.continueChar, if_neg fun same => inner (.inl same),
                if_neg fun same => inner (.inr same.1)]
              rfl
            refine ⟨Mark.continued front ++ after, same, by rw [kept]; rfl, ?_⟩
            exact free.continued isKind ends (fun mark member => others mark (by simp [member])) covers
              (unclosed kind isKind (Unclosed.of_append free).2)
    | marker other inside =>
      have isOther := (proper (.marker other inside) (by simp)).1
      refine ⟨fun last kind isKind shown => ?_, later⟩
      obtain ⟨_, same, _⟩ := firm.1 (ending?_continueBody isOther (.inl rfl) last) kind isKind
        (exposes (trails_of_kind isKind) shown)
      cases same

private theorem parse_of_directive {directive : Directive} (other : directive ≠ .comment)
    (read : Scan.directive kind body = directive) : Directive.parse body = directive := by
  unfold Scan.directive at read
  split at read
  · exact absurd read.symm other
  · exact read

private theorem sign_eq (header : Text) : "#define ".toList ++ header ++ " \\\n".toList =
    ("#define ".toList ++ header ++ " \\".toList) ++ ['\n'] := by
  rw [List.append_assoc _ " \\".toList]
  rfl

private theorem last_sign (header : Text) :
    ("#define ".toList ++ header ++ " \\".toList).getLast? = some '\\' := by
  rw [List.getLast?_append]
  rfl

private theorem unclosed_definition {own : Char} {header : FunctionHeader} {inner : List Mark}
    (isKind : kind = '@' ∨ kind = '!') (begins : Scan.directive own body = .functionBegin header)
    (plain : ¬Text.Meet kind '>' (text (.marker own body)))
    (unclosed : Unclosed kind (continued inner ++ rest)) :
    Unclosed kind (definition header.text inner ++ rest) := by
  have within := Directive.functionBegin_isInfix (parse_of_directive (by simp) begins)
  have inside : body <:+: text (.marker own body) := ⟨['<', own], [own, '>'], by simp [text]⟩
  have sign : ¬Text.Meet kind '>' ("#define ".toList ++ header.text ++ " \\".toList) := by
    refine fun met => plain (Text.Meet.of_isInfix inside (Text.Meet.of_isInfix within ?_))
    refine Text.meet_between ?_ ?_ met <;> rcases isKind with rfl | rfl <;> decide
  have other : kind ≠ '\\' ∧ kind ≠ '\n' := by rcases isKind with rfl | rfl <;> decide
  unfold definition
  rw [sign_eq, List.map_append, List.append_assoc, List.append_assoc]
  refine Unclosed.chars sign ⟨'\\', last_sign header.text, by decide, by decide, other.1.symm⟩
    ⟨⟨by simp [text, Text.meet_cons], fun same => ?_⟩, unclosed⟩
  exact absurd (Option.some.inj same) other.2.symm

/-- Rendering blocks brings no closer about. -/
theorem Rendered.unclosed (rendered : Rendered marks out) (isKind : kind = '@' ∨ kind = '!')
    (proper : ∀ mark ∈ marks, Proper mark) {tail : List Mark}
    (unclosed : Unclosed kind (marks ++ tail)) : Unclosed kind (out ++ tail) := by
  induction rendered generalizing tail with
  | nil => exact unclosed
  | char c later ih =>
    rw [List.forall_mem_cons] at proper
    have exposes := (later.covers tail).exposed '>' (.inr (.inr rfl))
    exact ⟨⟨unclosed.1.1, fun last shown => unclosed.1.2 last (exposes shown)⟩,
      ih proper.2 unclosed.2⟩
  | marker notBegin notEnd later ih =>
    rw [List.forall_mem_cons] at proper
    have exposes := (later.covers tail).exposed '>' (.inr (.inr rfl))
    exact ⟨⟨unclosed.1.1, fun last shown => unclosed.1.2 last (exposes shown)⟩,
      ih proper.2 unclosed.2⟩
  | @block own body header lastKind lastBody inner written rest out begins ends inside later ihInside ihLater =>
    simp only [List.forall_mem_cons, List.forall_mem_append] at proper
    have nested : Unclosed kind (inner ++ .marker lastKind lastBody :: (rest ++ tail)) := by
      simpa using unclosed.2
    have behind : Unclosed kind (rest ++ tail) := (Unclosed.of_append nested).2
    have written' := ihInside proper.2.1 nested
    rw [List.append_assoc]
    refine unclosed_definition isKind begins unclosed.1.1 ?_
    exact written'.continued isKind ends (inside.proper proper.2.1) (later.covers tail)
      (ihLater proper.2.2.2 behind)

/-- Rendering blocks keeps openers in their place. -/
theorem Rendered.firm (rendered : Rendered marks out) (proper : ∀ mark ∈ marks, Proper mark)
    (closed : ∀ kind body header, .marker kind body ∈ marks →
      Scan.directive kind body = .functionBegin header → leftover? body = none)
    {tail : List Mark} (firm : Firm (marks ++ tail)) : Firm (out ++ tail) := by
  induction rendered generalizing tail with
  | nil => exact firm
  | @char rest out c later ih =>
    rw [List.forall_mem_cons] at proper
    refine ⟨fun last kind isKind shown => ?_,
      ih proper.2 (fun kind body header member => closed kind body header (by simp [member])) firm.2⟩
    obtain ⟨behind, same, next, free⟩ := firm.1 last kind isKind
      ((later.covers tail).exposed kind (trails_of_kind isKind) shown)
    -- The other character of an opener is one of the text, and these are rendered as themselves.
    cases later with
    | nil => exact ⟨behind, same, next, free⟩
    | char second further =>
      obtain ⟨own, rfl⟩ := List.cons.inj next
      obtain rfl := Mark.char.inj own
      refine ⟨_, same, rfl, further.unclosed isKind (fun mark member => ?_) free⟩
      exact proper.2 mark (by simp [member])
    | marker | block => cases (List.cons.inj next).1
  | marker notBegin notEnd later ih =>
    rw [List.forall_mem_cons] at proper
    refine ⟨fun last kind isKind shown => ?_,
      ih proper.2 (fun kind body header member => closed kind body header (by simp [member])) firm.2⟩
    obtain ⟨_, same, _⟩ := firm.1 last kind isKind
      ((later.covers tail).exposed kind (trails_of_kind isKind) shown)
    cases same
  | @block kind body header lastKind lastBody inner written rest out begins ends inside later ihInside ihLater =>
    simp only [List.forall_mem_cons, List.forall_mem_append] at proper
    have nested : Firm (inner ++ .marker lastKind lastBody :: (rest ++ tail)) := by
      simpa using firm.2
    have behind : Firm (rest ++ tail) := (Firm.of_append nested).2
    have written' := ihInside proper.2.1
      (fun kind body header member => closed kind body header (by simp [member])) nested
    have later' := ihLater proper.2.2.2
      (fun kind body header member => closed kind body header (by simp [member])) behind
    have read := parse_of_directive (by simp) begins
    have sign : leftover? ("#define ".toList ++ header.text ++ " \\".toList) = none :=
      leftover?_sign (closed _ _ _ (by simp) begins) read
    unfold definition
    rw [sign_eq, List.map_append, List.append_assoc, List.append_assoc, List.append_assoc]
    refine Firm.chars sign ⟨'\\', last_sign header.text, by decide⟩
      ⟨fun angle => absurd (Option.some.inj angle) (by decide), ?_⟩
    exact Firm.continued ends (inside.proper proper.2.1) (later.covers tail)
      (fun kind isKind => later.unclosed isKind proper.2.2.2) written' later'

section

variable {replace : Directive → Option Text}

private theorem rewrite_closers {mark : Mark} (isKind : kind = '@' ∨ kind = '!')
    (tame : Tame replace mark) :
    (Text.Meet kind '>' (flat (rewrite replace mark)) → Text.Meet kind '>' mark.text) ∧
      ((flat (rewrite replace mark)).getLast? = some kind → mark.ending? = some kind) := by
  cases mark with
  | char c => exact ⟨id, fun last => by simpa [rewrite, ending?] using last⟩
  | marker own body =>
    rw [rewrite]
    cases replaced : replace (Scan.directive own body) with
    | none =>
      have proper : kind ≠ '>' := by rcases isKind with rfl | rfl <;> decide
      have same : flat [.marker own body] = text (.marker own body) := by simp [flat]
      have ends : (text (.marker own body)).getLast? = some '>' := by simp [text, List.getLast?_cons]
      exact ⟨fun met => same ▸ met, fun last =>
        absurd (Option.some.inj ((same ▸ last).symm.trans ends)) proper⟩
    | some line =>
      rcases tame line replaced with ⟨rfl, _⟩ | ⟨_, _, native⟩
      · simp
      · have read : Directive.parse body = Scan.directive own body :=
          parse_of_directive (fun comment => by simp [comment, Directive.native?] at native) rfl
        rw [flat_map_char]
        refine ⟨fun met => Text.Meet.of_isInfix ?_ (Directive.meet_native (delimits_of_kind isKind)
          (read ▸ native) met), fun last => ?_⟩
        · exact ⟨['<', own], [own, '>'], by simp [text]⟩
        · rw [ending?, native, Option.bind_some, last]

/-- Replacing markers brings no closer about. -/
theorem Unclosed.rewrite (isKind : kind = '@' ∨ kind = '!') (tame : ∀ mark ∈ marks, Tame replace mark)
    (unclosed : Unclosed kind marks) :
    ¬Text.Meet kind '>' (flat (marks.flatMap (rewrite replace))) := by
  induction marks with
  | nil => simp
  | cons mark rest ih =>
    have others : ∀ mark ∈ rest, Tame replace mark := fun mark member => tame mark (by simp [member])
    obtain ⟨inside, ends⟩ := rewrite_closers isKind (tame mark (by simp))
    rw [List.flatMap_cons, flat_append, Text.meet_append]
    rintro (own | later | ⟨last, first⟩)
    · exact unclosed.1.1 (inside own)
    · exact ih others unclosed.2 later
    · exact unclosed.1.2 (ends last) (exposed_of_head? others (.inr (.inr rfl)) first)

private theorem legible_chars {line : Text} (closed : leftover? line = none)
    (last : line.getLast? = some '<' → ¬Opening (flat rest).head?) (legible : Legible rest) :
    Legible (line.map .char ++ rest) := by
  induction line with
  | nil => exact legible
  | cons c line ih =>
    rw [leftover?_eq_none_iff, Text.meet_cons, Text.meet_cons] at closed
    have later : leftover? line = none := leftover?_eq_none_iff.mpr (by tauto)
    have ends : line.getLast? = some '<' → ¬Opening (flat rest).head? := by
      intro same
      cases line with
      | nil => simp at same
      | cons next line => exact last (by simpa [List.getLast?_cons_cons] using same)
    refine ⟨fun kind after opens => ?_, ih later ends⟩
    obtain ⟨same, isKind⟩ := Scan.opener?_eq_some_iff.mp opens
    obtain ⟨rfl, follows⟩ := List.cons.inj same
    cases line with
    | nil =>
      refine absurd ?_ (last rfl)
      have first : (flat rest).head? = some kind := by
        change flat ([] ++ rest) = _ at follows
        simpa using congrArg List.head? follows
      exact opening_iff.mpr ⟨kind, isKind, first⟩
    | cons next line =>
      obtain rfl : next = kind := (List.cons.inj follows).1
      rcases isKind with rfl | rfl <;> simp at closed

/-- Where openers keep their place, the text reads as its marks after markers are replaced. -/
theorem Firm.legible (firm : Firm marks) (proper : ∀ mark ∈ marks, Proper mark)
    (tame : ∀ mark ∈ marks, Tame replace mark) : Legible (marks.flatMap (rewrite replace)) := by
  induction marks with
  | nil => trivial
  | cons mark rest ih =>
    have others : ∀ mark ∈ rest, Tame replace mark := fun mark member => tame mark (by simp [member])
    have later := ih firm.2 (fun mark member => proper mark (by simp [member])) others
    cases mark with
    | char c =>
      refine ⟨fun kind after opens => ?_, later⟩
      obtain ⟨same, isKind⟩ := Scan.opener?_eq_some_iff.mp opens
      obtain ⟨rfl, follows⟩ := List.cons.inj same
      have shown : exposed rest = some kind :=
        exposed_of_head? others (trails_of_kind isKind) (by
          change flat (rest.flatMap (rewrite replace)) = _ at follows
          rw [follows]
          rfl)
      obtain ⟨behind, _, rfl, free⟩ := firm.1 rfl kind isKind shown
      obtain rfl := (List.cons.inj follows).2
      rw [Scan.closing?_eq_none_iff]
      exact free.rewrite isKind fun mark member => others mark (by simp [member])
    | marker own body =>
      have whole := proper (.marker own body) (by simp)
      rw [List.flatMap_cons, rewrite]
      cases replaced : replace (Scan.directive own body) with
      | none => exact ⟨whole.1, whole.2, later⟩
      | some line =>
        rcases tame (.marker own body) (by simp) line replaced with ⟨rfl, _⟩ | ⟨_, closed, native⟩
        · exact later
        · refine legible_chars closed (fun last opening => ?_) later
          have ends : ending? (.marker own body) = some '<' := by
            rw [ending?, native, Option.bind_some, last]
          obtain ⟨kind, isKind, first⟩ := opening_iff.mp opening
          obtain ⟨_, same, _⟩ :=
            firm.1 ends kind isKind (exposed_of_head? others (trails_of_kind isKind) first)
          cases same

end

end ShaderBuild.Mark
