/-
What can be wrong with a line that was cut into words without trouble.

Every cause that concerns one operator carries it.  `message` is the text that
the user sees.
-/
import PipelineShell.Operator

namespace PipelineShell

inductive SyntaxError where
  /-- `&` is not the last word, or the only one. -/
  | backgroundPosition
  /-- `>` and `>>` in one line. -/
  | mixedRedirect
  /-- The same redirection twice. -/
  | duplicateRedirect (op : Operator)
  /-- A redirection that does not stand, with its filename, at the end of the line. -/
  | redirectPosition (op : Operator)
  /-- The filename is missing its text or is an operator. -/
  | badFilename (op : Operator)
  /-- A stage without words. -/
  | emptyCommand
  /-- A stage that still holds an operator. -/
  | unexpectedOperator (op : Operator)
  /-- `cd` without exactly one argument. -/
  | cdArity
deriving DecidableEq, Repr

namespace SyntaxError

/-- The operator that the error is about, if it is about one. -/
def operator? : SyntaxError → Option Operator
  | .duplicateRedirect op | .redirectPosition op | .badFilename op
  | .unexpectedOperator op => some op
  | .backgroundPosition | .mixedRedirect | .emptyCommand | .cdArity => none

def message : SyntaxError → String
  | .backgroundPosition => "'&'の位置が不正です"
  | .mixedRedirect => "'>'と'>>'が混在しています"
  | .duplicateRedirect op => "リダイレクト'" ++ op.text ++ "'が重複しています"
  | .redirectPosition op => "リダイレクト'" ++ op.text ++ "'の位置が不正です"
  | .badFilename op => "'" ++ op.text ++ "'のファイル名が空か演算子です"
  | .emptyCommand => "空のコマンド"
  | .unexpectedOperator op => "予期しない演算子'" ++ op.text ++ "'"
  | .cdArity => "usage: cd ディレクトリ"

end SyntaxError

end PipelineShell
