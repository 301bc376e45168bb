import EditorCore.Proofs.Flow
import EditorCore.Proofs.Relexing

/-!
Contract: the lines that a list of texts has to have.

Owns:
- `Look`, what a line depends on besides its text and its place;
- `Look.rule`, the line of one text from scratch, and `slot`, the same line
  without indentation and tokens;
- `ruled`, the lines of a list of texts, and what shifting, stamping and
  outlining them do;
- `tiles` for ruled lines.

Does not own: how an editor arrives at its lines.
-/

namespace EditorCore

variable {κ : Type}

/-- What the lines of a document depend on besides its text. -/
structure Look (κ : Type) where
  layout : Layout κ
  keywords : KeywordSet
  metrics : GlyphMetrics κ
  options : Options κ

/-- The line of a text at an index and an offset, with the indentation and the
tokens that the text has. -/
def Look.rule [Coordinate κ] (look : Look κ) (index start : Nat) (text : List Char)
    (followed : Bool) : Line κ where
  index
  start
  stop := start + text.length
  indentEnd := start + leadingBlanks text
  displayOrigin := look.layout.lineOrigin index
  tokens :=
    if look.options.syntaxHighlight then
      tokensOfLine look.keywords look.metrics look.options.textSize text followed
    else []

/-- The line of a text with its span and its place only. -/
def slot [Coordinate κ] (layout : Layout κ) (index start : Nat) (text : List Char)
    (_followed : Bool) : Line κ :=
  Line.bare index start (start + text.length) (layout.lineOrigin index)

/-- A line stripped of its indentation and tokens. -/
def Line.outline (line : Line κ) : Line κ :=
  Line.bare line.index line.start line.stop line.displayOrigin

/-- The lines of texts from an index and an offset on, each made by a rule that
is told whether a separator follows. -/
def ruled (make : Nat → Nat → List Char → Bool → Line κ) (closed : Bool) :
    Nat → Nat → List (List Char) → List (Line κ)
  | _, _, [] => []
  | index, start, text :: later =>
      make index start text (closed || !later.isEmpty) ::
        ruled make closed (index + 1) (start + text.length + separatorLength) later

section Ruled

variable {make : Nat → Nat → List Char → Bool → Line κ} {closed : Bool}

@[simp]
theorem ruled_nil (index start : Nat) : ruled make closed index start [] = [] := rfl

@[simp]
theorem length_ruled (index start : Nat) (texts : List (List Char)) :
    (ruled make closed index start texts).length = texts.length := by
  induction texts generalizing index start with
  | nil => rfl
  | cons text later inductionHypothesis => simp [ruled, inductionHypothesis]

/-- The lines of a concatenation: those of the first texts, all followed by a
separator if more texts come, and those of the later texts where the flow of the
first ends. -/
theorem ruled_append (index start : Nat) (first later : List (List Char)) :
    ruled make closed index start (first ++ later) =
      ruled make (closed || !later.isEmpty) index start first ++
        ruled make closed (index + first.length) (start + (flow true first).length) later := by
  induction first generalizing index start with
  | nil => simp
  | cons text rest inductionHypothesis =>
      have follows : (closed || !(rest ++ later).isEmpty) =
          ((closed || !later.isEmpty) || !rest.isEmpty) := by
        cases rest <;> cases later <;> simp
      have place : index + 1 + rest.length = index + (rest.length + 1) := by omega
      have offset : start + text.length + separatorLength + (flow true rest).length =
          start + (flow true (text :: rest)).length := by
        rw [flow_true_cons]
        simp only [List.length_append, length_separator]
        omega
      simp only [List.cons_append, ruled, inductionHypothesis, follows, List.length_cons, place,
        offset]

theorem ruled_append_cons (index start : Nat) (first : List (List Char)) (text : List Char)
    (later : List (List Char)) :
    ruled make closed index start (first ++ text :: later) =
      ruled make true index start first ++
        ruled make closed (index + first.length) (start + (flow true first).length)
          (text :: later) := by
  rw [ruled_append]
  simp

theorem ruled_true_append (index start : Nat) (first later : List (List Char)) :
    ruled make true index start (first ++ later) =
      ruled make true index start first ++
        ruled make true (index + first.length) (start + (flow true first).length) later := by
  rw [ruled_append, Bool.true_or]

/-- The line at an index is made from the text there, which starts where the
flow of the texts before it ends. -/
theorem getElem?_ruled (index start : Nat) (texts : List (List Char)) (place : Nat) :
    (ruled make closed index start texts)[place]? =
      texts[place]?.map fun text =>
        make (index + place) (start + (flow true (texts.take place)).length) text
          (closed || decide (place + 1 < texts.length)) := by
  induction texts generalizing index start place with
  | nil => simp
  | cons text later inductionHypothesis =>
      cases place with
      | zero =>
          have follows : (!later.isEmpty) = decide (0 + 1 < (text :: later).length) := by
            cases later <;> simp
          simp [ruled, follows]
      | succ place =>
          have shifted : index + 1 + place = index + (place + 1) := by omega
          have offset :
              start + text.length + separatorLength + (flow true (later.take place)).length =
                start + (flow true ((text :: later).take (place + 1))).length := by
            rw [List.take_succ_cons, flow_true_cons]
            simp only [List.length_append, length_separator]
            omega
          simp only [ruled, List.getElem?_cons_succ, inductionHypothesis, shifted, offset,
            List.length_cons, Nat.add_lt_add_iff_right]

theorem map_ruled {change : Line κ → Line κ}
    {other : Nat → Nat → List Char → Bool → Line κ}
    (changes : ∀ index start text followed,
      change (make index start text followed) = other index start text followed)
    (index start : Nat) (texts : List (List Char)) :
    (ruled make closed index start texts).map change = ruled other closed index start texts := by
  induction texts generalizing index start with
  | nil => rfl
  | cons text later inductionHypothesis =>
      simp only [ruled, List.map_cons, changes, inductionHypothesis]

/-- A change that moves single lines of a stretch moves all lines of it. -/
theorem map_ruled_moved {change : Line κ → Line κ} {origin other total : Nat}
    (moves : ∀ index offset text followed, offset + text.length ≤ total →
      change (make index (origin + offset) text followed) =
        make index (other + offset) text followed)
    (index offset : Nat) (texts : List (List Char))
    (fits : offset + (flow closed texts).length ≤ total) :
    (ruled make closed index (origin + offset) texts).map change =
      ruled make closed index (other + offset) texts := by
  induction texts generalizing index offset with
  | nil => rfl
  | cons text later inductionHypothesis =>
      have step := length_flow_cons closed text later
      have head := moves index offset text (closed || !later.isEmpty) (by omega)
      cases later with
      | nil => simp only [ruled, List.map_cons, List.map_nil, head]
      | cons next rest =>
          rw [if_neg (List.cons_ne_nil next rest)] at step
          have tail := inductionHypothesis (index + 1)
            (offset + (text.length + separatorLength)) (by omega)
          rw [← Nat.add_assoc, ← Nat.add_assoc, ← Nat.add_assoc, ← Nat.add_assoc] at tail
          rw [ruled, List.map_cons, head, tail]
          rfl

end Ruled

variable [Coordinate κ]

/-! ## Outlines -/

@[simp]
theorem outline_rule (look : Look κ) (index start : Nat) (text : List Char) (followed : Bool) :
    (look.rule index start text followed).outline = slot look.layout index start text followed :=
  rfl

@[simp]
theorem map_outline_ruled (look : Look κ) (closed : Bool) (index start : Nat)
    (texts : List (List Char)) :
    (ruled look.rule closed index start texts).map Line.outline =
      ruled (slot look.layout) closed index start texts :=
  map_ruled (outline_rule look) index start texts

/-- A line with another end has the span of any text of that length. -/
theorem outline_of_stop {layout : Layout κ} {line : Line κ} {index start : Nat}
    {old text : List Char} {before : Bool}
    (outline : line.outline = slot layout index start old before) {stop indentEnd : Nat}
    (reach : stop = start + text.length) (followed : Bool) :
    ({ line with stop, indentEnd } : Line κ).outline =
      slot layout index start text followed := by
  rw [Line.outline, slot] at outline
  injection outline with sameIndex sameStart _ _ sameOrigin _
  rw [Line.outline, slot, sameIndex, sameStart, sameOrigin, reach]

theorem Look.length_rule (look : Look κ) (index start : Nat) (text : List Char)
    (followed : Bool) : (look.rule index start text followed).length = .ok text.length := by
  rw [Line.length, Look.rule, Word.sub_of_le (Nat.le_add_right _ _), Nat.add_sub_cancel_left]

/-! ## Moving and stamping -/

/-- A line moved forward is the line of the same text further on. -/
theorem shift_rule {look : Look κ} {index start distance : Nat} {text : List Char}
    {followed : Bool} (fits : start + text.length + distance ≤ Word.largest) :
    (look.rule index start text followed).shift distance =
      look.rule index (start + distance) text followed := by
  have blanks := leadingBlanks_le_length text
  have starts : Word.shift start distance = start + distance := Word.shift_ofNat (by omega)
  have stops : Word.shift (start + text.length) distance = start + distance + text.length := by
    rw [Word.shift_ofNat (by omega)]
    omega
  have indents : Word.shift (start + leadingBlanks text) distance =
      start + distance + leadingBlanks text := by
    rw [Word.shift_ofNat (by omega)]
    omega
  simp only [Look.rule, Line.shift, starts, stops, indents]

/-- A line moved back by no more than its start is the line of the same text
nearer to the front. -/
theorem shift_neg_rule {look : Look κ} {index start distance : Nat} {text : List Char}
    {followed : Bool} (fits : start + distance + text.length ≤ Word.largest) :
    (look.rule index (start + distance) text followed).shift (-(distance : Int)) =
      look.rule index start text followed := by
  have blanks := leadingBlanks_le_length text
  have starts : Word.shift (start + distance) (-(distance : Int)) = start := by
    rw [Word.shift_neg_ofNat (by omega)]
    omega
  have stops : Word.shift (start + distance + text.length) (-(distance : Int)) =
      start + text.length := by
    rw [Word.shift_neg_ofNat (by omega)]
    omega
  have indents : Word.shift (start + distance + leadingBlanks text) (-(distance : Int)) =
      start + leadingBlanks text := by
    rw [Word.shift_neg_ofNat (by omega)]
    omega
  simp only [Look.rule, Line.shift, starts, stops, indents]

theorem map_shift_ruled (look : Look κ) (closed : Bool) (index start distance : Nat)
    (texts : List (List Char))
    (fits : start + (flow closed texts).length + distance ≤ Word.largest) :
    (ruled look.rule closed index start texts).map (Line.shift distance) =
      ruled look.rule closed index (start + distance) texts := by
  have moves : ∀ index offset text followed, offset + text.length ≤ (flow closed texts).length →
      (look.rule index (start + offset) text followed).shift distance =
        look.rule index (start + distance + offset) text followed := by
    intro index offset text followed inside
    rw [Nat.add_right_comm start distance]
    exact shift_rule (by omega)
  exact map_ruled_moved moves index 0 texts (Nat.le_of_eq (Nat.zero_add _))

theorem map_shift_neg_ruled (look : Look κ) (closed : Bool) (index start distance : Nat)
    (texts : List (List Char))
    (fits : start + distance + (flow closed texts).length ≤ Word.largest) :
    (ruled look.rule closed index (start + distance) texts).map
        (Line.shift (-(distance : Int))) =
      ruled look.rule closed index start texts := by
  have moves : ∀ index offset text followed, offset + text.length ≤ (flow closed texts).length →
      (look.rule index (start + distance + offset) text followed).shift (-(distance : Int)) =
        look.rule index (start + offset) text followed := by
    intro index offset text followed inside
    rw [Nat.add_right_comm start distance]
    exact shift_neg_rule (by omega)
  exact map_ruled_moved moves index 0 texts (Nat.le_of_eq (Nat.zero_add _))

theorem stamped_cons (layout : Layout κ) (first : Nat) (line : Line κ) (later : List (Line κ)) :
    LineTable.stamped layout first (line :: later) =
      LineTable.stamp layout first line :: LineTable.stamped layout (first + 1) later := by
  simp [LineTable.stamped, List.mapIdx_cons, Nat.add_assoc, Nat.add_comm 1]

/-- Stamping ruled lines is ruling them by the stamp's layout from the index that
they are counted from. -/
theorem stamped_ruled (look : Look κ) (layout : Layout κ) (closed : Bool)
    (index start first : Nat) (texts : List (List Char)) :
    LineTable.stamped layout first (ruled look.rule closed index start texts) =
      ruled { look with layout }.rule closed first start texts := by
  induction texts generalizing index start first with
  | nil => rfl
  | cons text later inductionHypothesis =>
      rw [ruled, stamped_cons, inductionHypothesis]
      rfl

/-! ## Covering the text -/

theorem tilesFrom_ruled (look : Look κ) (index start : Nat) (text : List Char)
    (later : List (List Char)) :
    LineTable.tilesFrom (start + (flow false (text :: later)).length) index start
      (ruled look.rule false index start (text :: later)) = true := by
  induction later generalizing index start text with
  | nil =>
      have blanks := leadingBlanks_le_length text
      simp [ruled, LineTable.tilesFrom, Look.rule, blanks]
  | cons next rest inductionHypothesis =>
      have blanks := leadingBlanks_le_length text
      have cover := inductionHypothesis (index + 1) (start + text.length + separatorLength) next
      have total : start + text.length + separatorLength + (flow false (next :: rest)).length =
          start + (flow false (text :: next :: rest)).length := by
        rw [flow_false_cons_cons]
        simp only [List.length_append, length_separator]
        omega
      rw [total] at cover
      rw [ruled] at cover ⊢
      rw [ruled, LineTable.tilesFrom]
      simpa [Look.rule, blanks] using cover

end EditorCore
