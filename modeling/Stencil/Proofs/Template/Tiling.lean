import Stencil.Proofs.Template.Stretch

namespace Stencil

/-- The characters of a text from one offset up to another. -/
def piece (text : List Char) (low high : Nat) : List Char :=
  (text.take high).drop low

section Pieces

variable {text : List Char} {low mid high : Nat}

theorem piece_append (first : low ≤ mid) (second : mid ≤ high) :
    piece text low mid ++ piece text mid high = piece text low high := by
  have front : text.take mid = (text.take high).take mid := by
    rw [List.take_take, Nat.min_eq_left second]
  rw [piece, piece, piece, front, List.drop_take]
  have back : (text.take high).drop mid = ((text.take high).drop low).drop (mid - low) := by
    rw [List.drop_drop, Nat.add_sub_cancel' first]
  rw [back, List.take_append_drop]

theorem getElem?_of_piece {d : Char} {ds : List Char} (begins : piece text low high = d :: ds) :
    text[low]? = some d := by
  have first : (piece text low high)[0]? = some d := by rw [begins]; rfl
  rw [piece, List.getElem?_drop, Nat.add_zero, List.getElem?_take] at first
  split at first
  · exact first
  · cases first

end Pieces

/-- Literal text and what it stands for: read from left to right, an escape is dropped together with the meaning of the
character behind it, and every other character stands for itself. Only an escape leaves a delimiter in it. -/
inductive Region.Literal (r : Region) : List Char → List Char → Prop
  | nil : Literal r [] []
  | escape {d : Char} {raw value : List Char} (special : r.escapes d) (after : Literal r raw value) :
      Literal r ('\\' :: d :: raw) (d :: value)
  | char {c : Char} {raw value : List Char} (text : c ≠ '$')
      (shown : c = '\\' → ∀ d, raw.head? = some d → r.escapes d = false) (after : Literal r raw value) :
      Literal r (c :: raw) (c :: value)

namespace Region

variable {r : Region}

/-- Reading literal text as it comes and taking the escapes out of it afterwards give the same. -/
theorem Literal.unescape_eq {raw value : List Char} (literal : r.Literal raw value) : r.unescape raw = value := by
  induction literal with
  | nil => rfl
  | escape special _ ih => rw [unescape, if_pos ⟨rfl, special⟩, ih]
  | @char c raw value _ shown _ ih =>
    cases raw with
    | nil =>
      rw [← ih]
      rfl
    | cons d raw =>
      have single : ¬(c = '\\' ∧ r.escapes d) := by
        rintro ⟨same, special⟩
        rw [shown same d rfl] at special
        cases special
      rw [unescape, if_neg single, ih]

theorem Literal.filled {raw value : List Char} (literal : r.Literal raw value) (some : raw ≠ []) : value ≠ [] := by
  cases literal with
  | nil => contradiction
  | escape | char => exact List.cons_ne_nil _ _

/-- What is read as text is literal text up to where reading stops. -/
theorem literal_textLength (r : Region) (cs : List Char) :
    ∃ value, r.Literal (cs.take (r.textLength cs)) value := by
  fun_induction textLength r cs with
  | case1 => exact ⟨[], .nil⟩
  | case2 => exact ⟨[], .nil⟩
  | case3 c text => exact ⟨[c], .char text (by simp) .nil⟩
  | case4 => exact ⟨[], .nil⟩
  | case5 c d cs _ hides ih =>
    obtain ⟨value, literal⟩ := ih
    obtain ⟨rfl, special⟩ := hides
    exact ⟨d :: value, .escape special literal⟩
  | case6 c d cs text single ih =>
    obtain ⟨value, literal⟩ := ih
    refine ⟨c :: value, .char text (fun same e first => ?_) literal⟩
    have next : e = d := by
      rw [List.head?_take] at first
      split at first <;> cases first
      rfl
    rw [next]
    exact Bool.eq_false_iff.mpr fun special => single ⟨same, special⟩

/-- Reading text stops at a delimiter or at the end. -/
theorem stopsText_textLength (r : Region) (cs : List Char) : StopsText (cs.drop (r.textLength cs)) := by
  fun_induction textLength r cs with
  | case1 => exact .inl rfl
  | case2 => exact .inr ⟨[], rfl⟩
  | case3 => exact .inl rfl
  | case4 d cs => exact .inr ⟨d :: cs, rfl⟩
  | case5 _ _ _ _ _ ih => exact ih
  | case6 _ _ _ _ _ ih => exact ih

end Region

/-- The cursor goes over the text up to `stop`. -/
structure Cursor.Spans (c : Cursor) (text : List Char) (stop : Nat) : Prop where
  rest : c.rest = piece text c.offset stop
  ordered : c.offset ≤ stop
  bound : stop ≤ text.length

namespace Cursor.Spans

variable {c d : Cursor} {text : List Char} {stop : Nat}

theorem stop_eq (spans : c.Spans text stop) : c.stop = stop := by
  have ordered := spans.ordered
  have bound := spans.bound
  rw [Cursor.stop, spans.rest, piece, List.length_drop, List.length_take]
  omega

theorem of_suffix (spans : c.Spans text stop) (behind : d.rest <:+ c.rest) (same : d.stop = c.stop) :
    d.Spans text stop := by
  have ends := spans.stop_eq
  obtain ⟨front, whole⟩ := behind
  have length := congrArg List.length whole
  rw [List.length_append] at length
  rw [ends] at same
  rw [Cursor.stop] at ends same
  have place : d.offset = c.offset + front.length := by omega
  refine ⟨?_, by omega, spans.bound⟩
  rw [place, piece, ← List.drop_drop, ← piece, ← spans.rest, ← whole, List.drop_left]

theorem advance (spans : c.Spans text stop) (n : Nat) : (c.advance n).Spans text stop :=
  spans.of_suffix (List.drop_suffix n c.rest) (Cursor.stop_advance c n)

theorem take_eq (spans : c.Spans text stop) {n : Nat} (within : n ≤ c.rest.length) :
    c.rest.take n = piece text c.offset (c.offset + n) := by
  have ends := spans.stop_eq
  rw [Cursor.stop] at ends
  rw [spans.rest, piece, piece, List.take_drop, List.take_take, Nat.min_eq_left (by omega)]

end Cursor.Spans

/-- The characters that a token was read from. The delimiters of a directive belong to them. -/
def Token.raw (text : List Char) (t : Token) : List Char :=
  match t.kind with
  | .directive => piece text (t.offset - 1) (t.stop + 1)
  | .text | .eof => piece text t.offset t.stop

/-- The tokens tile the text from one offset up to another: each begins where the one before it ends, with the delimiter
in front of its content and that behind it if it is a directive, and the last of them is the only end. No text
is empty, and no text stands next to another one. -/
inductive Tiles (r : Region) (text : List Char) : Nat → Nat → List Token → Prop
  | last {high : Nat} {t : Token} (kind : t.kind = .eof) (begins : t.offset = high) (ends : t.stop = high)
      (empty : t.value = []) : Tiles r text high high [t]
  | text {low mid high : Nat} {t : Token} {ts : List Token} (kind : t.kind = .text) (begins : t.offset = low)
      (ends : t.stop = mid) (ordered : low < mid) (filled : t.value ≠ [])
      (literal : r.Literal (piece text low mid) t.value) (alone : ∀ u ∈ ts.head?, u.kind ≠ .text)
      (rest : Tiles r text mid high ts) : Tiles r text low high (t :: ts)
  | directive {low mid high : Nat} {t : Token} {ts : List Token} (kind : t.kind = .directive)
      (begins : t.offset = low + 1) (ends : t.stop + 1 = mid) (ordered : t.offset ≤ t.stop)
      (opens : text[low]? = some '$') (closes : text[t.stop]? = some '$')
      (value : t.value = piece text t.offset t.stop) (rest : Tiles r text mid high ts) :
      Tiles r text low high (t :: ts)

section Tokens

variable {r : Region} {c after : Cursor} {t : Token} {text : List Char} {stop : Nat}

theorem stop_next (read : Token.next r c = .ok t after) : after.stop = c.stop := by
  rcases Token.next_ok read with ⟨-, -, rfl⟩ | ⟨d, cs, -, ⟨-, opened⟩ | ⟨-, text⟩⟩
  · rfl
  · obtain ⟨stopped, closed, -, rfl⟩ := directiveToken_ok opened
    rw [Cursor.stop_advance, stop_toDelimiter closed, Cursor.stop_advance]
  · cases text
    exact Cursor.stop_advance c _

theorem toDelimiter_moves {opened : Mark} (read : toDelimiter opened c = .ok () after) : ∃ n, after = c.advance n := by
  fun_induction toDelimiter opened c with
  | case1 | case3 | case5 => cases read
  | case2 c =>
    cases read
    exact ⟨0, rfl⟩
  | case4 c _ _ _ mid block ih =>
    obtain ⟨m, -, -, rfl⟩ := readBraced_eq_ok_iff.mp block
    obtain ⟨n, rfl⟩ := ih read
    exact ⟨_, by rw [Cursor.advance_advance, Cursor.advance_advance]⟩
  | case6 c _ _ _ _ _ _ ih =>
    obtain ⟨n, rfl⟩ := ih read
    exact ⟨_, Cursor.advance_advance c 1 n⟩

/-- Reading a token moves the cursor on in its stretch. -/
theorem next_moves (read : Token.next r c = .ok t after) : ∃ n, after = c.advance n := by
  rcases Token.next_ok read with ⟨-, -, rfl⟩ | ⟨d, cs, -, ⟨-, opened⟩ | ⟨-, text⟩⟩
  · exact ⟨0, rfl⟩
  · obtain ⟨stopped, closed, -, rfl⟩ := directiveToken_ok opened
    obtain ⟨n, rfl⟩ := toDelimiter_moves closed
    exact ⟨_, by rw [Cursor.advance_advance, Cursor.advance_advance]⟩
  · cases text
    exact ⟨_, rfl⟩

theorem Cursor.Spans.next (spans : c.Spans text stop) (read : Token.next r c = .ok t after) :
    after.Spans text stop :=
  spans.of_suffix (next_suffix read) (stop_next read)

/-- Behind literal text there is a directive or the end. -/
theorem head_kind_of_stopsText {ts : List Token} (stops : StopsText c.rest) (read : tokenize r c = .ok ts) :
    ∀ u ∈ ts.head?, u.kind ≠ .text := by
  intro u first
  rcases stops with done | ⟨cs, opens⟩
  · rw [tokenize_nil done] at read
    cases read
    cases first
    exact nofun
  · obtain ⟨t, after, us, begins, -, rfl, -⟩ := tokenize_first (by simp [opens]) read
    cases first
    rw [Token.next_directive opens] at begins
    obtain ⟨_, -, rfl, -⟩ := directiveToken_ok begins
    exact nofun

/-- A text in front of tokens that tile what is left behind it. -/
theorem Tiles.cons_text {d : Char} {cs : List Char} {ts : List Token} (spans : c.Spans text stop)
    (next : c.rest = d :: cs) (shown : d ≠ '$') (read : textToken r c = .ok t after)
    (rest : tokenize r after = .ok ts) (tiles : Tiles r text after.offset stop ts) :
    Tiles r text c.offset stop (t :: ts) := by
  cases read
  have within := r.textLength_le c.rest
  have positive : 0 < r.textLength c.rest := next ▸ r.textLength_pos cs shown
  have behind : (c.advance (r.textLength c.rest)).offset = c.offset + r.textLength c.rest := by
    rw [Cursor.advance, List.length_take_of_le within]
  rw [behind] at tiles
  obtain ⟨value, literal⟩ := r.literal_textLength c.rest
  obtain rfl := literal.unescape_eq
  have some : c.rest.take (r.textLength c.rest) ≠ [] := by
    rw [Ne, List.take_eq_nil_iff]
    exact not_or.mpr ⟨Nat.ne_of_gt positive, next ▸ List.cons_ne_nil d cs⟩
  rw [spans.take_eq within] at literal some
  have alone := head_kind_of_stopsText (r.stopsText_textLength c.rest) rest
  refine .text rfl rfl rfl (Nat.lt_add_of_pos_right positive) ?_ ?_ alone tiles
  · rw [spans.take_eq within]
    exact literal.filled some
  · rw [spans.take_eq within]
    exact literal

/-- A directive in front of tokens that tile what is left behind it. -/
theorem Tiles.cons_directive {cs : List Char} {ts : List Token} (spans : c.Spans text stop)
    (opens : c.rest = '$' :: cs) (read : directiveToken c = .ok t after)
    (tiles : Tiles r text after.offset stop ts) : Tiles r text c.offset stop (t :: ts) := by
  obtain ⟨stopped, closed, rfl, rfl⟩ := directiveToken_ok read
  obtain ⟨⟨ds, closes⟩, behind⟩ := toDelimiter_found closed
  have inner := spans.advance 1
  have there := inner.of_suffix behind (stop_toDelimiter closed)
  have begins : (c.advance 1).offset = c.offset + 1 := by simp [Cursor.advance, opens]
  have goesOn : (stopped.advance 1).offset = stopped.offset + 1 := by simp [Cursor.advance, closes]
  have shorter := toDelimiter_shorter closed
  have left := inner.stop_eq
  have leftToo := there.stop_eq
  rw [Cursor.stop] at left leftToo
  have ordered : (c.advance 1).offset ≤ stopped.offset := by omega
  have amount : stopped.offset - (c.advance 1).offset ≤ (c.advance 1).rest.length := by omega
  rw [goesOn] at tiles
  refine .directive rfl begins rfl ordered ?_ ?_ ?_ tiles
  · exact getElem?_of_piece (spans.rest.symm.trans opens)
  · exact getElem?_of_piece (there.rest.symm.trans closes)
  · exact (inner.take_eq amount).trans (by rw [Nat.add_sub_cancel' ordered])

/-- The tokens of a stretch tile it. -/
theorem Cursor.Spans.tiles {ts : List Token} (spans : c.Spans text stop) (read : tokenize r c = .ok ts) :
    Tiles r text c.offset stop ts := by
  -- Reading a token leaves a shorter stretch, which ends where this one does.
  induction size : c.rest.length using Nat.strongRecOn generalizing c ts with
  | ind size ih =>
    subst size
    by_cases done : c.rest = []
    · rw [tokenize_nil done] at read
      cases read
      have ends := spans.stop_eq
      rw [Cursor.stop, done, List.length_nil, Nat.add_zero] at ends
      rw [ends]
      exact .last rfl ends ends rfl
    · obtain ⟨t, after, us, first, rest, rfl, -⟩ := tokenize_first done read
      have tiles := ih _ (Token.next_shorter done first) (spans.next first) rest rfl
      rcases Token.next_ok first with ⟨none, -, -⟩ | ⟨d, cs, next, ⟨rfl, opened⟩ | ⟨shown, text⟩⟩
      · exact absurd none done
      · exact .cons_directive spans next opened tiles
      · exact .cons_text spans next shown text rest tiles

end Tokens

namespace Tiles

variable {r : Region} {text : List Char} {low high : Nat} {ts : List Token}

theorem le (tiles : Tiles r text low high ts) : low ≤ high := by
  induction tiles with
  | last => exact Nat.le_refl _
  | text | directive => omega

theorem within (tiles : Tiles r text low high ts) : ∀ t ∈ ts, low ≤ t.offset ∧ t.stop ≤ high := by
  induction tiles with
  | last kind begins ends => simp [begins, ends]
  | text kind begins ends ordered _ _ _ rest ih | directive kind begins ends ordered _ _ _ rest ih =>
    have behind := rest.le
    rintro u (_ | ⟨_, member⟩)
    · omega
    · have later := ih u member
      omega

/-- A token ends in front of those behind it. -/
theorem pairwise (tiles : Tiles r text low high ts) : ts.Pairwise fun t u => t.stop ≤ u.offset := by
  induction tiles with
  | last => exact List.pairwise_singleton _ _
  | text kind begins ends ordered _ _ _ rest ih | directive kind begins ends ordered _ _ _ rest ih =>
    refine List.pairwise_cons.mpr ⟨fun u member => ?_, ih⟩
    have behind := rest.within u member
    omega

/-- Put together, the raw spans are the whole text that was tiled. -/
theorem raw_eq (tiles : Tiles r text low high ts) : ts.flatMap (Token.raw text) = piece text low high := by
  induction tiles with
  | last kind begins ends =>
    simp [Token.raw, kind, begins, ends, piece]
  | text kind begins ends ordered _ _ _ rest ih =>
    rw [List.flatMap_cons, ih, Token.raw, kind, begins, ends]
    exact piece_append (Nat.le_of_lt ordered) rest.le
  | directive kind begins ends _ _ _ _ rest ih =>
    rw [List.flatMap_cons, ih, Token.raw, kind, ends, begins, Nat.add_sub_cancel]
    exact piece_append (by omega) rest.le

/-- Taking the escapes out of the raw span of a text gives its value. -/
theorem value_eq_of_text (tiles : Tiles r text low high ts) {t : Token} (member : t ∈ ts) (kind : t.kind = .text) :
    t.value = r.unescape (t.raw text) := by
  induction tiles with
  | last eof =>
    rw [List.mem_singleton.mp member, eof] at kind
    cases kind
  | text isText begins ends _ _ literal _ _ ih =>
    rcases List.mem_cons.mp member with rfl | later
    · rw [Token.raw, isText, begins, ends]
      exact literal.unescape_eq.symm
    · exact ih later
  | directive isDirective _ _ _ _ _ _ _ ih =>
    rcases List.mem_cons.mp member with rfl | later
    · rw [isDirective] at kind
      cases kind
    · exact ih later

end Tiles

theorem Cursor.Spans.slice {text : List Char} {start stop : Nat} (ordered : start ≤ stop)
    (within : stop ≤ text.length) (mark : Mark) : (Cursor.slice text start stop mark).Spans text stop :=
  ⟨rfl, ordered, within⟩

/-- Any cursor goes over some text. -/
theorem Cursor.exists_spans (c : Cursor) : ∃ text, c.Spans text c.stop := by
  refine ⟨List.replicate c.offset ' ' ++ c.rest, ?_, Nat.le_add_right _ _, ?_⟩
  · rw [piece, Cursor.stop, List.take_of_length_le (by simp), List.drop_left' (by simp)]
  · simp [Cursor.stop]

theorem tokenize_within {r : Region} {c : Cursor} {ts : List Token} {t : Token} (read : tokenize r c = .ok ts)
    (member : t ∈ ts) : c.offset ≤ t.offset ∧ t.stop ≤ c.stop := by
  obtain ⟨text, spans⟩ := c.exists_spans
  exact (spans.tiles read).within t member

/-- No offset lies in two tokens. -/
theorem tokenize_disjoint {r : Region} {c : Cursor} {ts : List Token} {t u : Token} {i : Nat}
    (read : tokenize r c = .ok ts) (first : t ∈ ts) (second : u ∈ ts) (inFirst : t.offset ≤ i ∧ i < t.stop)
    (inSecond : u.offset ≤ i ∧ i < u.stop) : t = u := by
  obtain ⟨text, spans⟩ := c.exists_spans
  have apart : ts.Pairwise fun t u => t.stop ≤ u.offset := (spans.tiles read).pairwise
  let Same (t u : Token) : Prop := t.offset ≤ i ∧ i < t.stop → u.offset ≤ i ∧ i < u.stop → t = u
  have forth : ts.Pairwise Same := apart.imp fun before _ _ => by omega
  have back : ts.Pairwise (flip Same) := apart.imp fun before _ _ => by omega
  have all : ∀ ⦃t⦄, t ∈ ts → ∀ ⦃u⦄, u ∈ ts → Same t u :=
    List.Pairwise.forall_of_forall_of_flip (fun _ _ _ _ => rfl) forth back
  exact all first second inFirst inSecond

/-- Cutting a range of a text into tokens loses nothing. The tokens tile the range, and their raw spans one behind the
other are the range itself; a text holds its raw span without the escapes of the region, a directive what stands
between its delimiters. -/
theorem tokenize_tiles {text : List Char} {start stop : Nat} (ordered : start ≤ stop) (within : stop ≤ text.length)
    (mark : Mark) (r : Region) {tokens : List Token} (read : tokenize r (.slice text start stop mark) = .ok tokens) :
    Tiles r text start stop tokens ∧ tokens.flatMap (Token.raw text) = piece text start stop ∧
      ∀ t ∈ tokens, t.kind = .text → t.value = r.unescape (t.raw text) := by
  have tiles : Tiles r text start stop tokens := (Cursor.Spans.slice ordered within mark).tiles read
  exact ⟨tiles, tiles.raw_eq, fun t member kind => tiles.value_eq_of_text member kind⟩

/-- A block with escapes that count in a block only, a directive that hides delimiters, and a backslash at its end. -/
def blockText : List Char :=
  "\x7b\\\x7b\\\\$ $join:\x7b$\\\x7d$\x7d x$$y$ \\\x7d\\\x7d".toList

theorem tokenize_tiles_of_block :
    1 ≤ 29 ∧ 29 ≤ blockText.length ∧
    ∃ tokens, tokenize .block (.slice blockText 1 29 ⟨1, 2⟩) = .ok tokens ∧
      tokens.map (String.ofList ·.value) = ["\x7b\\$ ", "join:\x7b$\\\x7d$\x7d x", "y", " \x7d\\", ""] ∧
      Tiles .block blockText 1 29 tokens ∧ tokens.flatMap (Token.raw blockText) = piece blockText 1 29 ∧
      ∀ t ∈ tokens, t.kind = .text → t.value = Region.block.unescape (t.raw blockText) := by
  let tokens : List Token :=
    [⟨.text, "\x7b\\$ ".toList, 1, 7, ⟨1, 2⟩⟩,
      ⟨.directive, "join:\x7b$\\\x7d$\x7d x".toList, 8, 21, ⟨1, 8⟩⟩,
      ⟨.directive, "y".toList, 23, 24, ⟨1, 23⟩⟩, ⟨.text, " \x7d\\".toList, 25, 29, ⟨1, 26⟩⟩,
      ⟨.eof, [], 29, 29, ⟨1, 30⟩⟩]
  have read : tokenize .block (.slice blockText 1 29 ⟨1, 2⟩) = .ok tokens := by
    decide +kernel
  have values : tokens.map (String.ofList ·.value) =
      ["\x7b\\$ ", "join:\x7b$\\\x7d$\x7d x", "y", " \x7d\\", ""] := by
    decide +kernel
  exact ⟨by decide, by decide, tokens, read, values, tokenize_tiles (by decide) (by decide) ⟨1, 2⟩ .block read⟩

end Stencil
