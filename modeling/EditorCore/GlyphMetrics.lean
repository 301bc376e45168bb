import EditorCore.Coordinate
import EditorCore.Text.Break

/-!
Contract: how far glyphs advance.

Owns:
- `GlyphMetrics`, the three questions the editor may ask of a font;
- metrics given by advances alone, whose widths are sums from left to right;
- fixed-width metrics, metrics of a font, and metrics reached through a shared
  handle.

Does not own: how a font is read, or where a glyph is placed.
-/

namespace EditorCore

/-- A source of horizontal glyph metrics. -/
structure GlyphMetrics (κ : Type) where
  /-- How far one character advances at a size. -/
  advance : Char → κ → κ
  /-- The width and height of a text at a size. -/
  measure : List Char → κ → κ × κ
  /-- How far a run of characters advances at a size. -/
  runWidth : List Char → κ → κ

/-- What a font knows of its glyphs. -/
structure Font (κ : Type) where
  advanceWidth : Char → κ → κ
  /-- The distance of two lines at a size. -/
  lineHeight? : κ → Option κ

namespace GlyphMetrics

variable {κ : Type} [Coordinate κ]

/-- The advances of a run added up from left to right. -/
def sumOfAdvances (advance : Char → κ → κ) (run : List Char) (size : κ) : κ :=
  run.foldl (fun width char => width + advance char size) 0

/-- Metrics that know advances only: a text is as wide as the sum of them and
as high as the size. -/
def ofAdvances (advance : Char → κ → κ) : GlyphMetrics κ where
  advance := advance
  measure text size := (sumOfAdvances advance text size, size)
  runWidth := sumOfAdvances advance

/-- Every character advances by the same width, except breaks, which do not
advance. -/
def monospace (width : κ) : GlyphMetrics κ :=
  ofAdvances fun char _ => if isBreak char then 0 else width

/-- The cell width of fixed-width metrics that no host has chosen. -/
def standardCell : κ := Coordinate.ofCount 10

/-- Metrics of a font.  Breaks do not advance, and a text is as high as a line of
the font, or as the size if the font has no lines. -/
def ofFont (font : Font κ) : GlyphMetrics κ :=
  let advance := fun char size => if isBreak char then 0 else font.advanceWidth char size
  { ofAdvances advance with
    measure := fun text size =>
      (sumOfAdvances advance text size, (font.lineHeight? size).getD size) }

/-- Metrics behind a shared handle.  Advances and text boxes are asked of the
metrics behind it; the width of a run is added up from its advances. -/
def shared (metrics : GlyphMetrics κ) : GlyphMetrics κ where
  advance := metrics.advance
  measure := metrics.measure
  runWidth := sumOfAdvances metrics.advance

end GlyphMetrics

end EditorCore
