import NpsSdk.Lib.WebHost

/-!
# Callback addresses of tasks

`nop/callback-validator.ts`, over any reading of addresses.
-/

namespace NpsSdk.Nop.CallbackValidator

open NpsSdk.Lib

def isIpv4 (host : List Char) : Bool :=
  let parts := splitChars '.' host
  decide (parts.length = 4) && parts.all fun p => isShortNumber p && decide (digitsValue p ≤ 255)

def isPrivateIpv4 (host : List Char) : Bool :=
  match (splitChars '.' host).map digitsValue with
  | b0 :: b1 :: _ =>
    b0 == 127 || b0 == 10 || b0 == 0 || (b0 == 172 && decide (16 ≤ b1) && decide (b1 ≤ 31)) ||
      (b0 == 192 && b1 == 168) || (b0 == 169 && b1 == 254)
  | _ => false

/-- Does the text start with one of these? -/
def startsWithAny (cs : List Char) (starts : List String) : Bool := starts.any fun s => s.toList.isPrefixOf cs

def isPrivateIpv6 (host : List Char) : Bool :=
  let lower := lowerAscii host
  let rest :=
    if lower = "::1".toList then true
    else if startsWithAny lower ["fe8", "fe9", "fea", "feb"] then true
    else if startsWithAny lower ["fec", "fed", "fee", "fef"] then true
    else false
  match matchMapped isNumber lower with
  | some mapped => if isIpv4 mapped then isPrivateIpv4 mapped else rest
  | none => rest

/-- Is the host a loopback, private or link-local address, or the name of the machine? -/
def isPrivateHost (host : String) : Bool :=
  if host = "" then true
  else if lowerAscii host.toList = "localhost".toList then true
  else
    let stripped := stripBrackets host.toList
    if isIpv4 stripped then isPrivateIpv4 stripped
    else if ':' ∈ stripped then isPrivateIpv6 stripped
    else false

/-- What is wrong with a callback address, if anything is; `parse` is `new URL`. -/
def validateCallbackUrl (parse : String → Option Url) (callbackUrl : String) : Option String :=
  if isBlank callbackUrl then some "callback_url must not be empty."
  else
    match parse callbackUrl with
    | none => some s!"callback_url '{callbackUrl}' is not a valid absolute URI."
    | some uri =>
      let scheme := String.ofList (lowerAscii (stripColon uri.protocol.toList))
      if scheme ≠ "https" then some s!"callback_url MUST use the https:// scheme (got '{scheme}://')."
      else if isPrivateHost uri.hostname then
        some s!"callback_url host '{uri.hostname}' resolves to a private or loopback address (SSRF guard)."
      else none

end NpsSdk.Nop.CallbackValidator
