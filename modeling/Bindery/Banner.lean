import Bindery.Text.Basic

/-!
# Banners

Every emitted file begins with a comment that says whether it will be written
again or belongs to the user.
-/

namespace Bindery.Banner

/-- The version of the generator. -/
def version : String := "0.3.0"

/-- How a file marks comments. -/
inductive Style where
  | slash | hash
deriving DecidableEq, Repr

/-- What a comment starts with. -/
def Style.mark : Style → String
  | slash => "//"
  | hash => "#"

/-- The banner of a file that is written again on every run. -/
def generated (style : Style) (source : String) : String :=
  let m := style.mark
  s!"{m} Code generated by xplatter {version} from {source}. DO NOT EDIT.\n" ++
    s!"{m} Regenerate with `xplatter generate {source}`.\n\n"

/-- The banner of a file that belongs to the user. -/
def scaffold (style : Style) (source : String) : String :=
  let m := style.mark
  s!"{m} Scaffold generated by xplatter {version} from {source}.\n" ++
    s!"{m} This file is yours to edit; xplatter will not overwrite it.\n\n"

end Bindery.Banner
