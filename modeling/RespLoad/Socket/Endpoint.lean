import RespLoad.Number.Decimal
import RespLoad.Socket.Errno

/-!
# Endpoints

Where a client connects to: a host and a port as the user gave them, and the network address that the
host stands for. A host written as an address literal stands for itself and is not looked up.
-/
namespace RespLoad

/-- An IPv4 address. -/
structure Address where
  a : UInt8
  b : UInt8
  c : UInt8
  d : UInt8
  deriving Repr, DecidableEq

namespace Address

/-- One part of an address literal: at most 255, without a leading zero. -/
def octet? (part : Bytes) : Option UInt8 :=
  if part.head? = some 48 ∧ part.length ≠ 1 then none
  else (Decimal.read? 255 part).map UInt8.ofNat

/-- Reads four decimal parts with dots between them. The text ends at its first NUL. -/
def ofLiteral? (literal : Bytes) : Option Address :=
  match (literal.takeWhile (· != 0)).splitOn 46 with
  | [a, b, c, d] =>
    match octet? a, octet? b, octet? c, octet? d with
    | some a, some b, some c, some d => some ⟨a, b, c, d⟩
    | _, _, _, _ => none
  | _ => none

def text (address : Address) : Bytes :=
  (utf8 ".").intercalate
    ([address.a, address.b, address.c, address.d].map fun octet => Decimal.ofNat octet.toNat)

end Address

/-- A host and a port. -/
structure Endpoint where
  host : Bytes
  port : Int
  deriving Repr, DecidableEq

namespace Endpoint

def text (endpoint : Endpoint) : Bytes := endpoint.host ++ utf8 ":" ++ Decimal.ofInt endpoint.port

/-- The port number that goes into the network address: sixteen bits of the port given. -/
def wirePort (endpoint : Endpoint) : Nat := (endpoint.port % 65536).toNat

/-- The message about an endpoint that was not reached. -/
def unreachable (endpoint : Endpoint) (reason : Bytes) : Bytes :=
  utf8 "cannot connect to " ++ endpoint.text ++ utf8 ": " ++ reason

/-- The address of the endpoint's host, by lookup unless it is a literal. -/
def resolve (endpoint : Endpoint) (lookup : Except LookupFailure Address) :
    Except LookupFailure Address :=
  match Address.ofLiteral? endpoint.host with
  | some address => .ok address
  | none => lookup

end Endpoint

/-- Where and how a client connects. -/
structure Target where
  endpoint : Endpoint := ⟨utf8 "127.0.0.1", 6380⟩
  /-- Bound on one send or receive in milliseconds; zero or less sets none. -/
  timeoutMs : Int := 0
  user : Bytes := []
  /-- A password that is not empty is sent right after connecting. -/
  password : Bytes := []
  deriving Repr, DecidableEq

end RespLoad
