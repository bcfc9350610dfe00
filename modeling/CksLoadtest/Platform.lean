import CksLoadtest.Lib.Buffer

/-!
# What the process takes from its libraries

HMAC-SHA256, `inet_pton`, the two floating-point functions and the IEEE encodings
are code outside the repository. They enter as uninterpreted functions; a client's
datagrams are signed with the 64 octets found at `appToken.data()`.
-/
namespace CksLoadtest

open Lib.Buffer

structure Platform (K : Type*) where
  /-- `HMAC(EVP_sha256(), key, msg)`; `none` where OpenSSL answers a null pointer. -/
  hmacSha256 : Bytes → Bytes → Option Bytes
  /-- What a read finds at the given distance behind the end of a short token. The source leaves
  it open: what is said of a short token's tag holds while the memory there stays as it is. -/
  behindToken : Bytes → Nat → UInt8
  f64 : K → Vector UInt8 8
  f32 : K → Vector UInt8 4
  sqrt : K → K
  atan2 : K → K → K
  /-- `inet_pton(AF_INET, …)`: the address, `none` for anything but a dotted quad. -/
  inetPton : String → Option UInt32

namespace Hmac

def TAG_SIZE : Nat := 32

def TOKEN_OCTETS : Nat := 64

variable {K : Type*} (P : Platform K)

/-- The octets `spatialSign` reads through `token.data()`: always 64 of them. -/
def tokenOctets (token : Bytes) : Bytes :=
  token.take TOKEN_OCTETS ++
    (List.range (TOKEN_OCTETS - token.length)).map (P.behindToken token)

/-- `spatialSign`: HMAC over `pre || token`, keyed with the token. -/
def spatialSign (pre token : Bytes) : Option Bytes :=
  let key := tokenOctets P token
  if pre.length + TOKEN_OCTETS > 2048 + TOKEN_OCTETS then none
  else
    match P.hmacSha256 key (pre ++ key) with
    | some tag => if tag.length = TAG_SIZE then some tag else none
    | none => none

theorem tokenOctets_of_length {token : Bytes} (h : token.length = TOKEN_OCTETS) :
    tokenOctets P token = token := by
  simp [tokenOctets, h, List.take_of_length_le]

/-- A tag is the HMAC of the prefix and the token, 32 octets long. -/
theorem spatialSign_eq_some {P : Platform K} {pre token tag : Bytes}
    (h : spatialSign P pre token = some tag) :
    P.hmacSha256 (tokenOctets P token) (pre ++ tokenOctets P token) = some tag ∧
      tag.length = TAG_SIZE := by
  unfold spatialSign at h
  dsimp only at h
  split at h
  · cases h
  · split at h
    · rename_i t ht
      split at h
      · rename_i hl
        obtain rfl := Option.some.inj h
        exact ⟨ht, hl⟩
      · cases h
    · cases h

/-- For a prefix that fits its buffer, `spatialSign` answers what HMAC answers. -/
theorem spatialSign_eq_some_iff {P : Platform K} {pre token tag : Bytes}
    (hfit : pre.length ≤ 2048) : spatialSign P pre token = some tag ↔
      P.hmacSha256 (tokenOctets P token) (pre ++ tokenOctets P token) = some tag ∧
        tag.length = TAG_SIZE := by
  refine ⟨spatialSign_eq_some, fun ⟨hmac, hlen⟩ => ?_⟩
  unfold spatialSign
  dsimp only
  rw [if_neg (by omega), hmac]
  exact if_pos hlen

end Hmac

end CksLoadtest
