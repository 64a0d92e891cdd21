import SixGateway.HostedPage
import SixGateway.Library.Template

namespace SixGateway.Rendering

open Library.Template Models HostedPage

class StrUpper where
  upper : String → String

export StrUpper (upper)

instance asciiUpper : StrUpper where
  upper s := String.ofList (s.toList.map Char.toUpper)

/-- `str.replace`, for a marker that is not empty. -/
def replace (s old new : String) : String :=
  String.ofList (subst [(old.toList, new.toList)] s.toList)

def escapeLetter (c : Char) : List Char :=
  if c = '&' then "&amp;".toList
  else if c = '<' then "&lt;".toList
  else if c = '>' then "&gt;".toList
  else if c = '\x22' then "&quot;".toList
  else if c = '\x27' then "&#x27;".toList
  else [c]

/-- `html.escape`, quotes included. -/
def htmlEscape (s : String) : String := String.ofList (s.toList.flatMap escapeLetter)

/-- The nearest integer to a quotient, and the even one of two. -/
def roundHalfEven (num den : Nat) : Nat :=
  if 2 * (num % den) < den ∨ (2 * (num % den) = den ∧ num / den % 2 = 0) then num / den
  else num / den + 1

structure Magnitude where
  significand : Nat
  exponent : Int

/-- `n / 100`, the nearest `float` to the quotient. Beyond the largest one it is an `OverflowError`. -/
def hundredth (n : Nat) : Option Magnitude :=
  if n = 0 then some ⟨0, 0⟩
  else if 100 * (2 ^ 1024 - 2 ^ 970) ≤ n then none
  else
    -- The exponent that leaves a significand of 53 bits; `128 * n / 100` is at least 1.
    let e : Int := (128 * n / 100).log2 - 59
    some ⟨if 0 ≤ e then roundHalfEven n (100 * 2 ^ e.toNat)
      else roundHalfEven (n * 2 ^ (-e).toNat) 100, e⟩

def Magnitude.hundredths (x : Magnitude) : Nat :=
  if 0 ≤ x.exponent then x.significand * 2 ^ x.exponent.toNat * 100
  else roundHalfEven (x.significand * 100) (2 ^ (-x.exponent).toNat)

/-- Separators between the thousands of digits that are read from the last one on. -/
def grouped : List Char → List Char
  | a :: b :: c :: d :: ds => a :: b :: c :: ',' :: grouped (d :: ds)
  | ds => ds

def thousands (n : Nat) : List Char := (grouped (Nat.toDigits 10 n).reverse).reverse

def fixed2 (n : Nat) : List Char :=
  thousands (n / 100) ++ ['.', Nat.digitChar (n % 100 / 10), Nat.digitChar (n % 10)]

/-- `amount_cents / 100` in the format `,.2f`. -/
def formatMajor (amountCents : Int) : Option String :=
  (hundredth amountCents.natAbs).map (fun major =>
    String.ofList ((if amountCents < 0 then ['-'] else []) ++ fixed2 major.hundredths))

/-- The characters that `str.lstrip` drops. -/
def isSpace (c : Char) : Bool :=
  decide (c.toNat ∈ [0x20, 0x85, 0xa0, 0x1680, 0x2028, 0x2029, 0x202f, 0x205f, 0x3000] ∨
    (0x09 ≤ c.toNat ∧ c.toNat ≤ 0x0d) ∨ (0x1c ≤ c.toNat ∧ c.toNat ≤ 0x1f) ∨
    (0x2000 ≤ c.toNat ∧ c.toNat ≤ 0x200a))

def lstrip (s : List Char) : List Char := s.dropWhile isSpace

def marker (name : String) : String := "\x7b\x7b" ++ name ++ "\x7d\x7d"

def render (subs : List (String × String)) (template : String) : String :=
  subs.foldl (fun out e => replace out e.1 e.2) template

section

variable [StrUpper]

/-- `_format_amount`, or its `OverflowError`. -/
def formatAmount (amountCents : Int) (currency : String) : Option String :=
  (formatMajor amountCents).map (fun major =>
    if upper currency = "USD" then "$" ++ major else upper currency ++ " " ++ major)

variable [StrLower]

def urlEscape (url : String) : String :=
  if url = "" then ""
  else
    let lowered := lstrip (lower url).toList
    if ¬ ("http://".toList <+: lowered ∨ "https://".toList <+: lowered) then ""
    else htmlEscape url

def openSubs (args : OpenPage) (amountDisplay : String) : List (String × String) :=
  [(marker "PK", htmlEscape args.pk),
    (marker "CLIENT_SECRET", htmlEscape args.clientSecret),
    (marker "SUCCESS_URL", urlEscape ((truthy args.successUrl).getD "")),
    (marker "TITLE", amountDisplay ++ " — 6ix Gateway"),
    (marker "AMOUNT_DISPLAY", htmlEscape amountDisplay),
    (marker "DESCRIPTION", htmlEscape ((truthy args.description).getD "Payment"))]

def renderOpenPage (template : String) (args : OpenPage) : Option String :=
  (formatAmount args.amountCents args.currency).map (fun amountDisplay =>
    render (openSubs args amountDisplay) template)

def renderActionLink (successUrl : Option String) : String :=
  let safe := urlEscape ((truthy successUrl).getD "")
  if safe = "" then "" else "<a class=\x22btn\x22 href=\x22" ++ safe ++ "\x22>Continue</a>"

/-- The table of `_render_message_page`; three of its values are put in as they are. -/
def messageSubs (args : MessagePage) : List (String × String) :=
  [(marker "TITLE", htmlEscape args.title),
    (marker "HEADING", htmlEscape args.heading),
    (marker "BODY", htmlEscape args.body),
    (marker "ICON_GLYPH", args.iconGlyph),
    (marker "ICON_CLASS", args.iconClass),
    (marker "ACTION_HTML", renderActionLink args.action)]

def renderMessagePage (template : String) (args : MessagePage) : String :=
  render (messageSubs args) template

def renderPage (sessionTemplate messageTemplate : String) : Page → Option (Nat × String)
  | .form args => (renderOpenPage sessionTemplate args).map (fun html => (200, html))
  | .message statusCode args => some (statusCode, renderMessagePage messageTemplate args)

end

end SixGateway.Rendering
