import ShaderBuild.Expansion.Replace
import ShaderBuild.Proofs.Directive.Ranges
import ShaderBuild.Proofs.Expansion.Rendering
import ShaderBuild.Proofs.Text.Lines
/-!
What an error shows of the text. An excerpt is found by going back and on from two offsets to the next
characters: it ends, it is a slice, and it shows the bytes around the offset with three more on either
side at most. A fragment is the opener that is left over with its marker or its line.
-/
namespace ShaderBuild

namespace Excerpt

variable {text excerpt : Text} {offset position low high start stop : Nat}

/-! ### The surroundings of an offset -/

private theorem within_append (position low high : Nat) (first second : Text) :
    within position low high (first ++ second) = within position low high first ++
      within (position + Text.byteLength first) low high second := by
  induction first generalizing position with
  | nil => rfl
  | cons c first ih =>
    simp only [List.cons_append, within, ih, Text.byteLength, Nat.add_assoc]
    split <;> rfl

private theorem within_before (ends : position + Text.byteLength text ≤ low) :
    within position low high text = [] := by
  induction text generalizing position with
  | nil => rfl
  | cons c rest ih =>
    rw [Text.byteLength] at ends
    rw [within, if_neg (by omega)]
    exact ih (by omega)

private theorem within_behind (begins : high ≤ position) : within position low high text = [] := by
  induction text generalizing position with
  | nil => rfl
  | cons c rest ih =>
    rw [within, if_neg (by omega)]
    exact ih (by omega)

private theorem within_inside (inside : ∀ before c after, text = before ++ c :: after →
      low < position + Text.byteLength before + c.utf8Size ∧
        position + Text.byteLength before < high) : within position low high text = text := by
  induction text generalizing position with
  | nil => rfl
  | cons c rest ih =>
    have own : low < position + c.utf8Size ∧ position < high := inside [] c rest rfl
    rw [within, if_pos own]
    congr 1
    apply ih
    intro before d after same
    have later := inside (c :: before) d after (by rw [same, List.cons_append])
    rw [Text.byteLength] at later
    omega

/-- The searches around an offset, and the slice between the offsets that they come to. -/
def Cuts (text : Text) (offset : Nat) (excerpt : Text) : Prop :=
  ∃ start stop, Text.Retreats text (offset - radius) start ∧
    Text.Advances text (min (offset + radius) (Text.byteLength text)) stop ∧
    Text.slice? text start stop = some excerpt

private theorem slice?_around (retreats : Text.Retreats text (offset - radius) start)
    (advances : Text.Advances text (min (offset + radius) (Text.byteLength text)) stop) :
    Text.slice? text start stop = some (around text offset) := by
  obtain ⟨begins, back, last⟩ := retreats.last
  obtain ⟨ends, on, first⟩ := advances.first
  have ordered : start ≤ stop := by
    obtain ⟨before, after, rfl, length⟩ := Text.isBoundary_iff.mp begins
    rw [Text.byteLength_append] at on
    omega
  obtain ⟨part, sliced⟩ :=
    Option.isSome_iff_exists.mp (Text.slice?_isSome_iff.mpr ⟨ordered, begins, ends⟩)
  obtain ⟨before, after, rfl, starts, stops⟩ := Text.slice?_eq_some.mp sliced
  -- A character of the slice outside the window would have a boundary nearer to the window.
  have inside : within (Text.byteLength before) (offset - radius) (offset + radius) part = part := by
    apply within_inside
    rintro front c back rfl
    have wide := c.utf8Size_pos
    have own : Text.isBoundary (before ++ ((front ++ c :: back) ++ after))
        (Text.byteLength before + Text.byteLength front) = true :=
      Text.isBoundary_iff.mpr ⟨before ++ front, c :: back ++ after, by simp,
        Text.byteLength_append _ _⟩
    have next : Text.isBoundary (before ++ ((front ++ c :: back) ++ after))
        (Text.byteLength before + Text.byteLength front + c.utf8Size) = true :=
      Text.isBoundary_iff.mpr ⟨before ++ (front ++ [c]), back ++ after, by simp, by
        rw [Text.byteLength_append, Text.byteLength_append, Nat.add_assoc]; rfl⟩
    rw [Text.byteLength_append, Text.byteLength] at stops
    constructor
    · by_contra below
      have := last _ next (by omega)
      omega
    · by_contra above
      have := first _ own (by omega)
      omega
  have behind : within (Text.byteLength before + Text.byteLength part) (offset - radius)
      (offset + radius) after = [] := by
    rw [Text.byteLength_append, Text.byteLength_append] at on
    by_cases past : offset + radius ≤ stop
    · exact within_behind (by omega)
    · obtain rfl : after = [] := eq_nil_of_byteLength (by omega)
      rfl
  rw [sliced, around, within_append, within_append, Nat.zero_add, inside, behind,
    within_before (by omega), List.nil_append, List.append_nil]

theorem cuts_iff : Cuts text offset excerpt ↔ excerpt = around text offset := by
  constructor
  · rintro ⟨start, stop, retreats, advances, sliced⟩
    rw [slice?_around retreats advances] at sliced
    exact (Option.some.inj sliced).symm
  · rintro rfl
    obtain ⟨start, retreats⟩ := Text.exists_retreats text (offset - radius)
    obtain ⟨stop, advances⟩ := Text.exists_advances
      (Nat.min_le_right (offset + radius) (Text.byteLength text))
    exact ⟨start, stop, retreats, advances, slice?_around retreats advances⟩

/-- The bytes around an offset, as far as the text goes. -/
def window (text : Text) (offset : Nat) : List UInt8 :=
  ((Text.encode text).take (offset + radius)).drop (offset - radius)

/-- The excerpt is a part of the text in whole characters. Its bytes are those around the offset and
three more on either side at most, and what stands at the offset is shown. -/
structure Shows (text : Text) (offset : Nat) (excerpt : Text) : Prop where
  bytes : ∃ before front back after, text = before ++ (excerpt ++ after) ∧
    Text.encode excerpt = front ++ (window text offset ++ back) ∧
    Text.byteLength before + front.length = offset - radius ∧ front.length ≤ 3 ∧ back.length ≤ 3
  here : ∀ before shown after, text = before ++ (shown ++ after) → Text.byteLength before = offset →
    Text.byteLength shown ≤ radius → shown <:+: excerpt

private theorem drop_take_between {α : Type} {front part back : List α} {low high : Nat}
    (begins : front.length ≤ low) (ordered : low ≤ high)
    (ends : high ≤ front.length + part.length ∨ back = []) :
    ((front ++ (part ++ back)).take high).drop low =
      (part.take (high - front.length)).drop (low - front.length) := by
  have none : back.take (high - front.length - part.length) = [] := by
    rcases ends with covered | rfl
    · exact List.take_eq_nil_iff.mpr (.inl (by omega))
    · exact List.take_nil
  rw [List.take_append, List.take_append, none, List.append_nil,
    List.take_of_length_le (Nat.le_trans begins ordered), List.drop_append,
    List.drop_eq_nil_of_le begins, List.nil_append]

private theorem shows_slice (within : offset ≤ Text.byteLength text)
    (retreats : Text.Retreats text (offset - radius) start)
    (advances : Text.Advances text (min (offset + radius) (Text.byteLength text)) stop)
    (sliced : Text.slice? text start stop = some excerpt) : Shows text offset excerpt := by
  have near := retreats.near (Nat.le_trans (Nat.sub_le _ _) within)
  have nearToo := advances.near (Nat.min_le_right _ _)
  obtain ⟨-, back, -⟩ := retreats.last
  obtain ⟨-, on, -⟩ := advances.first
  constructor
  case here =>
    rintro front shown rest same rfl narrow
    have whole := congrArg Text.byteLength same
    rw [Text.byteLength_append, Text.byteLength_append] at whole
    exact Text.isInfix_of_slice? sliced same (by omega) (by omega)
  case bytes =>
    obtain ⟨before, after, rfl, starts, stops⟩ := Text.slice?_eq_some.mp sliced
    rw [Text.byteLength_append, Text.byteLength_append] at within nearToo on
    let low := offset - radius - start
    let high := offset + radius - start
    have bytes : window (before ++ (excerpt ++ after)) offset =
        ((Text.encode excerpt).take high).drop low := by
      rw [window, Text.encode_append, Text.encode_append, drop_take_between]
      · rw [Text.length_encode, starts]
      · rw [Text.length_encode, starts]
        exact back
      · omega
      · rw [Text.length_encode, Text.length_encode, starts]
        by_cases past : offset + radius ≤ start + Text.byteLength excerpt
        · exact .inl past
        · obtain rfl : after = [] := eq_nil_of_byteLength (by omega)
          exact .inr rfl
    refine ⟨before, ((Text.encode excerpt).take high).take low, (Text.encode excerpt).drop high, after,
      rfl, ?_, ?_, ?_, ?_⟩
    · rw [bytes, ← List.append_assoc, List.take_append_drop, List.take_append_drop]
    · rw [List.length_take, List.length_take, Text.length_encode]
      omega
    · rw [List.length_take]
      omega
    · rw [List.length_drop, Text.length_encode]
      omega

theorem shows_around (within : offset ≤ Text.byteLength text) :
    Shows text offset (around text offset) := by
  obtain ⟨start, stop, retreats, advances, sliced⟩ := cuts_iff.mpr (rfl : around text offset = _)
  exact shows_slice within retreats advances sliced

/-! ### What is left over at an opener -/

/-- What is shown of a text that begins with an opener: of a directive with a closer all up to the first
one, else the line. -/
structure Fragment (rest fragment : Text) : Prop where
  isPrefix : fragment <+: rest
  opens : ∃ kind, (kind = '@' ∨ kind = '!') ∧ ['<', kind] <+: fragment
  closed : ∀ after, rest = '<' :: '@' :: after → ['@', '>'] <:+: after →
    ∃ body, fragment = '<' :: '@' :: (body ++ ['@', '>']) ∧
      ∀ front tail, after = front ++ '@' :: '>' :: tail → body.length ≤ front.length
  line : (∀ after, rest = '<' :: '@' :: after → ¬['@', '>'] <:+: after) →
    Text.FirstLine rest fragment

private theorem fragment_line {kind : Char} {after : Text} (isKind : kind = '@' ∨ kind = '!')
    (unclosed : kind = '@' → ¬['@', '>'] <:+: after) :
    Fragment ('<' :: kind :: after)
      ((Text.lines ('<' :: kind :: after)).head?.getD ('<' :: kind :: after)) := by
  have first : Text.FirstLine ('<' :: kind :: after) _ :=
    Text.firstLine_lines (List.cons_ne_nil _ _)
  refine ⟨first.isPrefix, ⟨kind, isKind, ?_⟩, ?_, fun _ => first⟩
  · apply first.begins ⟨after, rfl⟩
    rcases isKind with rfl | rfl <;> decide
  · intro rest same closed
    obtain ⟨rfl, rfl⟩ := List.cons.inj (List.cons.inj same).2
    exact absurd closed (unclosed rfl)

theorem fragment_leftover {kind : Char} {after : Text} (isKind : kind = '@' ∨ kind = '!') :
    Fragment ('<' :: kind :: after) (leftover ('<' :: kind :: after)) := by
  unfold leftover
  split
  · rename_i rest same
    obtain ⟨rfl, rfl⟩ := List.cons.inj (List.cons.inj same).2
    cases closes : Scan.closing? '@' after with
    | none => exact fragment_line (.inl rfl) fun _ => Scan.closing?_eq_none_iff.mp closes
    | some body =>
      obtain ⟨tail, rfl, open_⟩ := Scan.closing?_eq_some closes
      refine ⟨⟨tail, by simp⟩, ⟨'@', .inl rfl, _, rfl⟩, ?_, ?_⟩
      · intro rest same _
        obtain ⟨-, rfl⟩ := List.cons.inj (List.cons.inj same).2
        exact ⟨body, rfl, fun front tail same =>
          length_le_of_unclosed (by decide) (Scan.closing?_eq_none_iff.mp open_) same⟩
      · intro unclosed
        exact absurd ⟨body, tail, by simp⟩ (unclosed _ rfl)
  · rename_i other
    exact fragment_line isKind fun same => absurd (same ▸ rfl) (other after)

end Excerpt

/-! ### Offsets in errors -/

/-- An opener of the kind stands at the offset. -/
def OpensAt (text : Text) (offset : Nat) (kind : Char) : Prop :=
  (kind = '@' ∨ kind = '!') ∧
    ∃ before after, text = before ++ '<' :: kind :: after ∧ Text.byteLength before = offset

namespace OpensAt

variable {text excerpt : Text} {offset : Nat} {kind : Char}

theorem within (opens : OpensAt text offset kind) : offset ≤ Text.byteLength text := by
  obtain ⟨-, before, after, rfl, rfl⟩ := opens
  rw [Text.byteLength_append]
  exact Nat.le_add_right _ _

/-- An excerpt shows the opener that it is about. -/
theorem shown (opens : OpensAt text offset kind) (shows : Excerpt.Shows text offset excerpt) :
    ['<', kind] <:+: excerpt := by
  obtain ⟨isKind, before, after, same, starts⟩ := opens
  apply shows.here before ['<', kind] after same starts
  rcases isKind with rfl | rfl <;> decide

end OpensAt

namespace ExpansionError

/-- Where in the text the problem is. -/
def offset? : ExpansionError → Option Nat
  | .unbalancedEnd _ offset _ => some offset
  | .unterminatedFunction _ _ offset => some offset
  | .unconsumedDirective _ offset _ _ => some offset
  | _ => none

/-- The surroundings that are shown of the text. -/
def excerpt? : ExpansionError → Option Text
  | .unbalancedEnd _ _ excerpt => some excerpt
  | .unconsumedDirective _ _ _ excerpt => some excerpt
  | _ => none

/-- The problem is at the offset of the text, and if surroundings are shown they are those of the
offset. -/
def Points (text : Text) (offset : Nat) (problem : ExpansionError) : Prop :=
  problem.offset? = some offset ∧
    ∀ excerpt, problem.excerpt? = some excerpt → excerpt = Excerpt.around text offset

end ExpansionError

namespace Blocks

variable {path : Path} {whole : Text} {blocks next : Blocks} {piece : Piece} {pieces : List Piece}
  {problem : ExpansionError}

/-- The offsets at which the open blocks begin. -/
def offsets (blocks : Blocks) : List Nat :=
  blocks.opened.map OpenBlock.offset

@[simp] theorem offsets_push (blocks : Blocks) (text : Text) :
    (blocks.push text).offsets = blocks.offsets := by
  obtain ⟨opened, output, closed⟩ := blocks
  cases opened <;> rfl

private theorem points_of_feed (fails : feed path whole blocks piece = .error problem) :
    ∃ found, piece = .marker found ∧ problem.Points whole found.start := by
  unfold feed at fails
  split at fails
  · cases fails
  · cases fails
  · rename_i found
    refine ⟨found, rfl, ?_⟩
    split at fails
    · cases fails
    · split at fails
      · obtain rfl := Except.error.inj fails
        exact ⟨rfl, fun excerpt shown => (Option.some.inj shown).symm⟩
      · cases fails
    · cases fails

private theorem offsets_feed (takes : feed path whole blocks piece = .ok next) {offset : Nat}
    (member : offset ∈ next.offsets) :
    offset ∈ blocks.offsets ∨ ∃ found, piece = .marker found ∧ found.start = offset := by
  unfold feed at takes
  split at takes
  · obtain rfl := Except.ok.inj takes
    exact .inl member
  · obtain rfl := Except.ok.inj takes
    exact .inl (by simpa using member)
  · rename_i found
    split at takes
    · obtain rfl := Except.ok.inj takes
      rcases List.mem_cons.mp member with rfl | outer
      · exact .inr ⟨found, rfl, rfl⟩
      · exact .inl outer
    · split at takes
      · cases takes
      · rename_i block outer opened
        obtain rfl := Except.ok.inj takes
        rw [offsets_push] at member
        exact .inl (by rw [offsets, opened]; exact List.mem_cons_of_mem _ member)
    · obtain rfl := Except.ok.inj takes
      exact .inl (by simpa using member)

private theorem points_of_feedAll (fails : feedAll path whole blocks pieces = .error problem) :
    ∃ found, .marker found ∈ pieces ∧ problem.Points whole found.start := by
  induction pieces generalizing blocks with
  | nil => cases fails
  | cons piece rest ih =>
    rw [feedAll, List.foldlM_cons] at fails
    cases first : feed path whole blocks piece with
    | error other =>
      rw [first] at fails
      obtain rfl := Except.error.inj fails
      obtain ⟨found, rfl, points⟩ := points_of_feed first
      exact ⟨found, List.mem_cons_self, points⟩
    | ok next =>
      rw [first] at fails
      obtain ⟨found, member, points⟩ := ih fails
      exact ⟨found, List.mem_cons_of_mem _ member, points⟩

private theorem offsets_feedAll (takes : feedAll path whole blocks pieces = .ok next) {offset : Nat}
    (member : offset ∈ next.offsets) :
    offset ∈ blocks.offsets ∨ ∃ found, .marker found ∈ pieces ∧ found.start = offset := by
  induction pieces generalizing blocks with
  | nil =>
    obtain rfl := Except.ok.inj takes
    exact .inl member
  | cons piece rest ih =>
    rw [feedAll, List.foldlM_cons] at takes
    cases first : feed path whole blocks piece with
    | error other =>
      rw [first] at takes
      cases takes
    | ok middle =>
      rw [first] at takes
      rcases ih takes with inside | ⟨found, later, starts⟩
      · rcases offsets_feed first inside with open_ | ⟨found, rfl, starts⟩
        · exact .inl open_
        · exact .inr ⟨found, List.mem_cons_self, starts⟩
      · exact .inr ⟨found, List.mem_cons_of_mem _ later, starts⟩

end Blocks

section
variable {path : Path} {text : Text} {problem : ExpansionError}

theorem points_of_defineBlocks (fails : (defineBlocks path text).run.value = .error problem) :
    ∃ found ∈ markers text, problem.Points text found.start := by
  rw [value_defineBlocks] at fails
  cases takes : Blocks.feedAll path text Blocks.empty (scan text) with
  | error other =>
    rw [takes] at fails
    obtain rfl := Except.error.inj fails
    obtain ⟨found, member, points⟩ := Blocks.points_of_feedAll takes
    exact ⟨found, mem_markers member, points⟩
  | ok last =>
    rw [takes, Except.bind, Blocks.finish] at fails
    split at fails
    · cases fails
    · rename_i block outer opened
      obtain rfl := Except.error.inj fails
      have open_ : block.offset ∈ last.offsets := by simp [Blocks.offsets, opened]
      rcases Blocks.offsets_feedAll takes open_ with none | ⟨found, member, starts⟩
      · cases none
      · exact ⟨found, mem_markers member, congrArg some starts.symm, fun excerpt shown => by cases shown⟩

theorem exists_opensAt {found : Marker} (member : found ∈ markers text) :
    ∃ kind, OpensAt text found.start kind := by
  obtain ⟨before, kind, body, after, same, starts, written, -, reads⟩ := spans_of_mem_markers member
  refine ⟨kind, reads.imp And.left And.left, before, body ++ kind :: '>' :: after, ?_, ?_⟩
  · rw [same, written]
    simp
  · rw [starts, Nat.zero_add]

theorem exists_points (fails : (defineBlocks path text).run.value = .error problem ∨
      checkLeftovers path text = .error problem) :
    ∃ offset kind, OpensAt text offset kind ∧ problem.Points text offset := by
  rcases fails with blocks | leftovers
  · obtain ⟨found, member, points⟩ := points_of_defineBlocks blocks
    obtain ⟨kind, opens⟩ := exists_opensAt member
    exact ⟨found.start, kind, opens, points⟩
  · unfold checkLeftovers at leftovers
    split at leftovers
    · cases leftovers
    · rename_i offset rest first
      obtain rfl := Except.error.inj leftovers
      obtain ⟨before, kind, after, same, starts, isKind, length⟩ := exists_of_firstOpener? first
      refine ⟨offset, kind, ⟨isKind, before, after, starts ▸ same, ?_⟩, rfl, fun excerpt shown => ?_⟩
      · exact (length.trans (Nat.zero_add _)).symm
      · exact (Option.some.inj shown).symm

/-- At each offset that is reported of a text, by the function blocks or for what is left over, the search
for an excerpt ends with one slice of the text. It shows the opener at the offset with all bytes around
it, and three more on either side at most. At the first opener that is left over the text has a slice to
its end, and the fragment that is shown of it is the directive up to its first closer, or the line. -/
theorem excerpts_show_openers (text : Text) :
    (∀ path problem, (defineBlocks path text).run.value = .error problem ∨
        checkLeftovers path text = .error problem →
      ∃ offset kind, OpensAt text offset kind ∧ problem.Points text offset ∧
        (∀ excerpt, Excerpt.Cuts text offset excerpt ↔ excerpt = Excerpt.around text offset) ∧
        Excerpt.Shows text offset (Excerpt.around text offset) ∧
        ['<', kind] <:+: Excerpt.around text offset) ∧
    ∀ offset, leftover? text = some offset →
      ∃ rest, Text.slice? text offset (Text.byteLength text) = some rest ∧
        Excerpt.Fragment rest (Excerpt.leftover rest) ∧
        ∀ path, checkLeftovers path text = .error
          (.unconsumedDirective path offset (Excerpt.leftover rest) (Excerpt.around text offset)) := by
  constructor
  · intro path problem fails
    obtain ⟨offset, kind, opens, points⟩ := exists_points fails
    have shows := Excerpt.shows_around opens.within
    exact ⟨offset, kind, opens, points, fun excerpt => Excerpt.cuts_iff, shows, opens.shown shows⟩
  · intro offset found
    obtain ⟨⟨own, rest⟩, first, rfl⟩ := Option.map_eq_some_iff.mp found
    obtain ⟨before, kind, after, same, starts, isKind, length⟩ := exists_of_firstOpener? first
    refine ⟨rest, ?_, ?_, ?_⟩
    · apply Text.slice?_eq_some.mpr
      refine ⟨before, [], by simpa using same, by rw [length, Nat.zero_add], ?_⟩
      rw [same, Text.byteLength_append, length, Nat.zero_add]
    · obtain rfl : rest = '<' :: kind :: after := starts
      exact Excerpt.fragment_leftover isKind
    · intro path
      rw [checkLeftovers, first]

/-- A marker with characters of three bytes in front and of four bytes behind: no character begins 80
bytes in front of it, and none 80 bytes behind. -/
def broad : Text :=
  List.replicate 30 '€' ++ ("<@x@>".toList ++ List.replicate 20 '𝄞')

/-- Of a marker between broad characters an excerpt in whole characters is shown. -/
theorem excerpts_show_openers_broad :
    checkLeftovers ⟨"a.slv".toList⟩ broad =
      .error (.unconsumedDirective ⟨"a.slv".toList⟩ 90 "<@x@>".toList (broad.drop 3).dropLast) ∧
    Excerpt.Cuts broad 90 (broad.drop 3).dropLast ∧ Excerpt.Shows broad 90 (broad.drop 3).dropLast := by
  have shown : Excerpt.around broad 90 = (broad.drop 3).dropLast := by decide +kernel
  obtain ⟨rest, sliced, -, fails⟩ :=
    (excerpts_show_openers broad).2 90 (by decide +kernel : leftover? broad = some 90)
  have rest_eq : rest = broad.drop 30 := Option.some.inj (sliced.symm.trans (by decide +kernel))
  have fragment : Excerpt.leftover (broad.drop 30) = "<@x@>".toList := by decide +kernel
  have refused := fails ⟨"a.slv".toList⟩
  rw [rest_eq, fragment, shown] at refused
  obtain ⟨offset, kind, -, points, cuts, shows, -⟩ :=
    (excerpts_show_openers broad).1 ⟨"a.slv".toList⟩ _ (.inr refused)
  obtain rfl : 90 = offset := Option.some.inj points.1
  rw [shown] at shows cuts
  exact ⟨refused, (cuts _).mpr rfl, shows⟩

end

end ShaderBuild
