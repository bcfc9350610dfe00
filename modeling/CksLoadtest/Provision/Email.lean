import CksLoadtest.Config

/-!
# Derived accounts

The account of a client is the email pattern with its placeholders replaced.
-/
namespace CksLoadtest

/-- `replaceAll`: one pass from left to right that does not look into what it wrote.
`skip` characters of the last match are still to be passed over. -/
def replaceAll (old new : List Char) (skip : Nat) : List Char → List Char
  | [] => []
  | c :: cs =>
    if 0 < skip then replaceAll old new (skip - 1) cs
    else if old.isPrefixOf (c :: cs) then
      new ++ replaceAll old new (old.length - 1) cs
    else c :: replaceAll old new 0 cs

namespace Config

variable {K : Type*} (cfg : Config K)

/-- `%0*d`: zeros between the sign and the digits up to the width. -/
def formatIndex (globalIndex : Int) : List Char :=
  let sign := if globalIndex < 0 then ['-'] else []
  let digits := Nat.toDigits 10 globalIndex.natAbs
  sign ++ List.replicate (cfg.indexWidth.toNat - sign.length - digits.length) '0' ++ digits

def derivedEmail (globalIndex : Int) : String :=
  let email := cfg.email.toList
  let localPart := email.takeWhile (· ≠ '@')
  let domain := (email.dropWhile (· ≠ '@')).drop 1
  let out := cfg.emailPattern.toList
  let out := replaceAll "{local}".toList localPart 0 out
  let out := replaceAll "{domain}".toList domain 0 out
  String.ofList (replaceAll "{index}".toList (cfg.formatIndex globalIndex) 0 out)

end Config

end CksLoadtest
