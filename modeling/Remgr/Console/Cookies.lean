/-
Module: Remgr.Console.Cookies
Purpose: The cookies of the console: the session token a request carries, and what the proxy under
  `/et` does with the cookies of a request and of a response.
Trusted boundary: `HeaderValue` follows the `http` crate: a value is made of bytes that are neither
  control characters nor DEL, `to_str` succeeds on visible ASCII, blanks and tabs, and `from_str` on any
  text whose bytes are allowed; header names are compared without case
Main exports: HeaderValue, HeaderText, dropConsoleCookie, requestToken, forwardHeaders,
  scopeCookieToEt, setCookie
-/
import Remgr.Lib.Lines
import Remgr.Lib.Strip
import Remgr.Lib.Utf8

namespace Remgr.Console.Cookies

open Lib Lib.Text

/-! ## Header values -/

def headerByte (b : UInt8) : Bool := b == 9 || (0x20 ≤ b && b != 0x7F)

def visibleChar (c : Char) : Bool := c == '\t' || (0x20 ≤ c.toNat && c.toNat < 0x7F)

structure HeaderValue where
  bytes : List UInt8
  valid : ∀ b ∈ bytes, headerByte b = true

/-- What `to_str` returns. -/
structure HeaderText where
  chars : List Char
  visible : ∀ c ∈ chars, visibleChar c = true

namespace HeaderValue

/-- One character for each byte. -/
def chars (value : HeaderValue) : List Char := value.bytes.map asciiChar

def toStr (value : HeaderValue) : Option HeaderText :=
  if visible : value.chars.all visibleChar = true then
    some ⟨value.chars, List.all_eq_true.mp visible⟩
  else none

def fromStr (text : List Char) : Option HeaderValue :=
  if valid : (text.flatMap String.utf8EncodeChar).all headerByte = true then
    some ⟨text.flatMap String.utf8EncodeChar, List.all_eq_true.mp valid⟩
  else none

end HeaderValue

/-! ## Requests -/

/-- `COOKIE`, with the equals sign. -/
def sessionCookie : List Char := "remgr_session=".toList

def dropConsoleCookie (raw : HeaderValue) : Option HeaderValue := do
  let text ← raw.toStr
  let kept := ((split (· == ';') text.chars).map trim).filter fun c =>
    !c.isEmpty && !sessionCookie.isPrefixOf c
  if kept = [] then none else HeaderValue.fromStr ("; ".toList.intercalate kept)

/-- A header with its name. -/
abbrev Header := String × HeaderValue

/-- Header names are the same but for their case. -/
def named (name : String) (header : Header) : Bool :=
  header.1.toList.map Char.toLower == name.toList

def requestToken (headers : List Header) : Option (List Char) :=
  let cookie := (headers.find? (named "cookie")).bind (·.2.toStr)
  let found := (split (· == ';') ((cookie.map (·.chars)).getD [])).filterMap fun c =>
    stripPrefix sessionCookie (trim c)
  found.head?.filter (· ≠ [])

/-- The loop of `easytier_web_proxy` over the headers of the request. -/
def forwardHeaders (headers : List Header) : List Header :=
  headers.filterMap fun header =>
    if named "host" header || named "connection" header || named "content-length" header ||
        named "accept-encoding" header then none
    else if named "cookie" header then (dropConsoleCookie header.2).map fun kept => ("cookie", kept)
    else some header

/-! ## Responses -/

def scopeCookieToEt (raw : List Char) : List Char :=
  let parts := (split (· == ';') raw).map trim
  let lower (p : List Char) := p.map Char.toLower
  let sameSite := parts.any fun p => "samesite=".toList.isPrefixOf (lower p)
  let parts := parts.filter fun p =>
    !"domain=".toList.isPrefixOf (lower p) && !"path=".toList.isPrefixOf (lower p)
  let parts := if sameSite then parts else parts ++ ["SameSite=Lax".toList]
  "; ".toList.intercalate (parts ++ ["Path=/et".toList])

/-- The loop of `easytier_web_proxy` over the headers of the response, for `set-cookie`. -/
def setCookie (value : HeaderValue) : Option HeaderValue := do
  HeaderValue.fromStr (scopeCookieToEt (← value.toStr).chars)

end Remgr.Console.Cookies
