/-
Module: Remgr.Frpc.ProxyLine
Purpose: A proxy of the frp client as one line of text: `FrpcProxyConfig::parse_line` of
  `remgr-frps/src/client.rs`, and the form of the console (`remgr/src/console/assets/index.html`),
  which shows each proxy as such a line (`proxyLine`) and sends the lines back (`saveModal`).
Trusted boundary: the text `{:?}` gives a string is a parameter; `String.prototype.trim` follows the
  language's definition of white space
Main exports: lineTokens, FrpcProxyConfig.parseLine, proxyLine, formText, savedLines, reopened
-/
import Remgr.Frpc.Config
import Remgr.Lib.Lines

namespace Remgr.Frpc

open Remgr.Lib

/-! ## The line parser -/

/-- Where `parse_line` splits. -/
def isSeparator (c : Char) : Bool := Text.isWhitespace c || c == ','

/-- The parts of a line. -/
def lineTokens (text : List Char) : List (List Char) :=
  (Text.split isSeparator text).filter fun part => !part.isEmpty

/-- `tok.parse::<u16>()`. -/
def portOf (tok : List Char) : Option UInt16 := (Text.parseUnsigned 65536 tok).map UInt16.ofNat

/-- The word is `tcp` or `udp`, in any case. -/
def isType (tok : List Char) : Bool :=
  eqIgnoreAsciiCase tok "tcp".toList || eqIgnoreAsciiCase tok "udp".toList

/-- What the loop of `parse_line` has read. -/
structure LineState where
  proxy : FrpcProxyConfig
  ports : List UInt16 := []
  ipSeen : Bool := false

/-- The loop of `parse_line`. -/
def readTokens (debug : String → String) : List (List Char) → LineState → Except String LineState
  | [], line => .ok line
  | tok :: rest, line =>
      if isType tok then
        readTokens debug rest
          { line with proxy := { line.proxy with proxyType := String.ofList (tok.map Char.toLower) } }
      else
        match portOf tok with
        | some n => readTokens debug rest { line with ports := line.ports ++ [n] }
        | none =>
            match Text.parseSigned 64 tok with
            | some n =>
                .error ("proxy " ++ debug line.proxy.name ++ ": port " ++ toString n ++
                  " is out of range (0-65535)")
            | none =>
                if line.ipSeen = false then
                  readTokens debug rest
                    { line with
                      proxy := { line.proxy with localIp := String.ofList tok }
                      ipSeen := true }
                else
                  .error ("proxy " ++ debug line.proxy.name ++ ": unexpected field " ++
                    debug (String.ofList tok) ++
                    " (name [tcp|udp] [local_ip] local_port remote_port)")

/-- `FrpcProxyConfig::parse_line`. -/
def FrpcProxyConfig.parseLine (debug : String → String) (text : List Char) :
    Except String FrpcProxyConfig :=
  match lineTokens text with
  | [] => .error "empty proxy definition"
  | name :: rest => do
      let line ← readTokens debug rest
        { proxy := { name := String.ofList name, localPort := 0, remotePort := 0 } }
      match line.ports with
      | [localPort, remotePort] => .ok { line.proxy with localPort, remotePort }
      | ports =>
          if 2 < ports.length then
            .error ("proxy " ++ debug line.proxy.name ++ " has " ++ toString ports.length ++
              " port values, expected local_port and remote_port")
          else
            .error ("proxy " ++ debug line.proxy.name ++
              " needs local_port and remote_port (got " ++ toString ports.length ++
              " port value(s))")

/-! ## The form -/

/-- The white space and the line terminators of the browser's language. -/
def isBrowserSpace (c : Char) : Bool :=
  let n := c.toNat
  (9 ≤ n && n ≤ 13) || n == 0x20 || n == 0xA0 || n == 0x1680 || (0x2000 ≤ n && n ≤ 0x200A) ||
    n == 0x2028 || n == 0x2029 || n == 0x202F || n == 0x205F || n == 0x3000 || n == 0xFEFF

/-- `String.prototype.trim`. -/
def browserTrim (text : List Char) : List Char :=
  ((text.dropWhile isBrowserSpace).reverse.dropWhile isBrowserSpace).reverse

/-- `a||b` on texts. -/
def orElse (text fallback : List Char) : List Char := if text = [] then fallback else text

/-- `proxyLine`, on the table the server sends. -/
def proxyLine (p : FrpcProxyConfig) : List Char :=
  [' '].intercalate [p.name.toList, orElse p.proxyType.toList "tcp".toList,
    orElse p.localIp.toList "127.0.0.1".toList, Nat.toDigits 10 p.localPort.toNat,
    Nat.toDigits 10 p.remotePort.toNat]

/-- The text `configFormHtml` puts into the field. -/
def formText (proxies : List FrpcProxyConfig) : List Char :=
  ['\n'].intercalate (proxies.map proxyLine)

/-- The lines `saveModal` makes of the field. -/
def savedLines (text : List Char) : List (List Char) :=
  ((Text.split (· == '\n') text).map browserTrim).filter fun line => !line.isEmpty

/-- The proxies the server reads after the form was opened and saved unchanged. -/
def reopened (debug : String → String) (proxies : List FrpcProxyConfig) :
    Except String (List FrpcProxyConfig) :=
  (savedLines (formText proxies)).mapM (FrpcProxyConfig.parseLine debug)

example : (FrpcProxyConfig.parseLine id "dns,udp,10.0.0.5,53,5353".toList).toOption =
    some ⟨"dns", "udp", "10.0.0.5", 53, 5353⟩ := by decide
example : (FrpcProxyConfig.parseLine id "v6 udp ::1 5353 5353".toList).toOption =
    some ⟨"v6", "udp", "::1", 5353, 5353⟩ := by decide

end Remgr.Frpc
