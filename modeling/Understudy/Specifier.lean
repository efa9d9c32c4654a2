import Understudy.Path

/-!
# Understudy.Specifier

Module specifiers: the text by which one module names another. Parts are separated by `/`, and a
specifier that is relative to a directory climbs with `..` to the nearest directory in common.
-/

namespace Understudy.Specifier

/-- How many elements two lists share from the start. -/
def sharedLength {α : Type} [DecidableEq α] : List α → List α → Nat
  | a :: as, b :: bs => if a = b then sharedLength as bs + 1 else 0
  | _, _ => 0

/-- A path as found, with `/` for every backslash. -/
def ofPath (p : Path) : String :=
  String.ofList (p.text.toList.map fun c => if c = '\\' then '/' else c)

/-- The segments that lead from one list of parts to another beside it. -/
def climb (base target : List Path.Part) : List String :=
  let shared := sharedLength target base
  List.replicate (base.length - shared) ".." ++ (target.drop shared).map Path.Part.text

/-- Segments as a specifier: one that starts with two dots stays, any other gets `./` in front. -/
def ofSegments (segments : List String) : String :=
  let joined := "/".intercalate segments
  if "..".toList.isPrefixOf joined.toList then joined else "./" ++ joined

/-- The target as seen from a directory, or as it is if the two share nothing. -/
def relative (target base : Path) : String :=
  if sharedLength target.parts base.parts = 0 then ofPath target
  else ofSegments (climb base.parts target.parts)

/-- A specifier without the extension, if it ends in it. -/
def dropExtension (extension specifier : String) : String :=
  let ending := '.' :: extension.toList
  let chars := specifier.toList
  if ending.isSuffixOf chars then String.ofList (chars.take (chars.length - ending.length))
  else specifier

end Understudy.Specifier
