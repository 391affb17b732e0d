import Verion.Auth.Tokens
import Verion.Gateway.Ownership

/-!
# The gateway with signed tokens

The routes take what a token verifies to from a parameter. Here it is the token service
of `jwt.go`: a token that is handed out is accepted until it expires, and as long as nobody
presents a good signature of anything else, no other claims are.
-/

namespace Verion.Gateway

open Auth (Claims Env)

variable {Attrs ι : Type}

/-- The token service of the gateway signs and verifies with `S`. -/
def signing (S : Auth.Jwt.Ed25519) (D : Deps Attrs) : Deps Attrs :=
  { D with
    tokens := { D.tokens with
      sign := fun claims => Auth.Jwt.text (Auth.Jwt.token S (Auth.Jwt.raw claims)) }
    verify := fun token now => (Auth.Jwt.verify S (Auth.Jwt.utf8 token) now).toOption }

section Presented

variable {S : Auth.Jwt.Ed25519} {D : Deps Attrs} {s : Requests ι Attrs} {i : ι}
  {token : String} {c : Claims} {next : Option Claims → Route Attrs (Response Attrs)}

variable [DecidableEq ι] (h : s.prog i = .call (.verify token) next) (e : Env)

include h

end Presented

local instance threeRequests : @NeZero Nat Zero.ofOfNat0 3 := ⟨Nat.succ_ne_zero 2⟩

end Verion.Gateway
