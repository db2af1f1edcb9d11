/-
  This file defines source positions. A span is a region of a
  source file with one-based lines and columns; a span whose
  start line is zero carries no position.

  Key definitions include:
    * `Span`
    * `Span.line`
    * `Span.isUnknown`
    * `Span.ending`
    * `Span.text`
-/

namespace ExecTrace

------------------------------------------------------------
-- Spans
------------------------------------------------------------

/-
  A region of a source file. The default span has an empty
  file name and zero positions.
-/
structure Span where
  file : String := ""
  startLine : UInt32 := 0
  startCol : UInt32 := 0
  endLine : UInt32 := 0
  endCol : UInt32 := 0
  deriving DecidableEq, Repr, Inhabited

namespace Span

/- The span without any position. -/
def unknown : Span := {}

/- A span within one line. -/
def line
    (file : String)
    (line startCol endCol : UInt32) : Span :=
  ⟨file, line, startCol, line, endCol⟩

/- Whether a span carries no position. -/
def isUnknown (s : Span) : Bool :=
  s.startLine == 0

/- The empty span at the end of a span. -/
def ending (s : Span) : Span :=
  ⟨s.file, s.endLine, s.endCol, s.endLine, s.endCol⟩

/- The written form `file:[line:col,line:col]`. -/
def text (s : Span) : String :=
  s.file ++ ":[" ++ toString s.startLine ++ ":"
    ++ toString s.startCol ++ "," ++ toString s.endLine
    ++ ":" ++ toString s.endCol ++ "]"

end Span

end ExecTrace
