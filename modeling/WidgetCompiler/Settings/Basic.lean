import WidgetCompiler.Text.Basic

/-!
# Settings

What can be chosen for all widgets at once: the names that the generated source bears, the defaults
of an identity, what is done with style sheets, and how many keywords a widget gets.
-/

namespace WidgetCompiler

open Text

/-- The choices that hold for all widgets. -/
structure Settings where
  /-- The domain in which labels are localized. -/
  textDomain : Text := "hustle-tools"
  /-- The package that the source says it belongs to. -/
  package : Text := "Hustle_Tools"
  defaultCategory : Text := "general"
  defaultIcon : Text := "eicon-code"
  /-- Whether rules that match nothing in the fragment are left out. -/
  pruneUnusedCss : Bool := true
  /-- Whether selectors are put below the widget's wrapper. -/
  scopeCss : Bool := true
  maxKeywords : Nat := 10
deriving DecidableEq, Repr

/-- What can be wrong with settings. -/
inductive SettingsError
  | badTextDomain (value : Text)
  | badPackage (value : Text)
  | noCategory
deriving DecidableEq, Repr

/-- The error in words. -/
def SettingsError.message : SettingsError → Text
  | badTextDomain value =>
    "Configuration error: text_domain '" ++ value ++ "' must be a lowercase slug"
  | badPackage value => "Configuration error: package '" ++ value ++ "' must be a PHP identifier"
  | noCategory => "Configuration error: default_category must not be empty"

/-- Whether a text is made of small letters, digits, hyphens and underscores, and begins with a
letter or a digit. -/
def isSlug : Text → Bool
  | [] => false
  | c :: s => (c.isLower || c.isDigit)
    && s.all fun c => c.isLower || c.isDigit || c == '_' || c == '-'

/-- Whether a text is made of letters, digits and underscores, and does not begin with a digit. -/
def isName : Text → Bool
  | [] => false
  | c :: s => (c.isAlpha || c == '_') && s.all fun c => c.isAlphanum || c == '_'

/-- Says what is wrong with settings. -/
def Settings.check (s : Settings) : Except SettingsError Unit :=
  if !isSlug s.textDomain then .error (.badTextDomain s.textDomain)
  else if !isName s.package then .error (.badPackage s.package)
  else if allBlank s.defaultCategory then .error .noCategory
  else .ok ()

end WidgetCompiler
