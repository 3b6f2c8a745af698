import ArangoDataTools.TokenLapses

namespace ArangoDataTools.TokenDenials
open Interaction Interaction.Program Tokens TokenCalls TokenLapses Jwt
open TokenRotation (granted answeredBy)

section Denial

-- How many requests a task has sent, and whether it ever met anything but a token and a 401.
structure Count where
  lucky : Bool := false
  sends : Nat := 0

def counting (client : ArangoClient) : Protocol TokenOp TokenOp.Answer Count where
  permits _ _ := True
  advance q
    | .login _, answer => {q with lucky := q.lucky || (granted client.signer answer).isNone}
    | .send _, answer => ⟨q.lucky || !rejects answer,q.sends + 1⟩
    | _, _ => q

structure Counted (before : Count) (most : Nat) (met : Except Error α → Prop) (result : Except Error α)
    (q : Count) : Prop where
  lucky : before.lucky = true → q.lucky = true
  unlucky : q.lucky = false → q.sends ≤ before.sends + most ∧ met result

variable {client : ArangoClient} {q : Count}

theorem lucky_follows (lucky : q.lucky = true) (p : Exchange α) :
    Follows (counting client) (fun _ later => later.lucky = true) p q := by
  refine follows_kept (fun _ _ _ => trivial) (fun q op answer lucky => ?_) p q lucky
  cases op with
  | login | send => exact Bool.or_eq_true_iff.mpr (.inl lucky)
  | cachedToken | storeToken | invalidateToken | now | count => exact lucky

-- Every login succeeds and every token is refused.
inductive Denies (signer : Signer) (w : Option CachedToken) :
    (op : TokenOp) → op.Answer → Option CachedToken → Prop where
  | cachedToken : Denies signer w .cachedToken w w
  | storeToken (token : CachedToken) : Denies signer w (.storeToken token) () (some token)
  | invalidateToken : Denies signer w .invalidateToken () none
  | now (clock : Nat) : Denies signer w .now clock w
  | count (counter : Counter) : Denies signer w (.count counter) () w
  | login (request : HttpRequest) (answer : Except ReqwestError HttpResponse) (token : String) :
      granted signer answer = some token → Denies signer w (.login request) answer w
  | send (request : HttpRequest) (answer : Except ReqwestError HttpResponse) :
      rejects answer = true → Denies signer w (.send request) answer w

def denying (ι : Type) (signer : Signer) :
    Environment ι TokenOp TokenOp.Answer (Option CachedToken) := fun _ op w answer after =>
  Denies signer w op answer after

variable {ι α : Type} [DecidableEq ι]
  {allowed : Tasks ι α (Option CachedToken) Count → Event ι TokenOp TokenOp.Answer → Prop}

theorem unlucky_step {s next : Tasks ι α (Option CachedToken) Count}
    {event : Event ι TokenOp TokenOp.Answer} (unlucky : ∀ i, (s.phases i).lucky = false)
    (step : PoolStep (denying ι client.signer) (counting client) s event next) :
    ∀ i, (next.phases i).lucky = false := by
  cases step with
  | stop head => exact unlucky
  | @call i op rest answer after head answered =>
    have own : ((counting client).advance (s.phases i) op answer).lucky = false := by
      cases answered with
      | login request answer token given =>
        exact Bool.or_eq_false_iff.mpr ⟨unlucky i,by rw [given]; rfl⟩
      | send request answer rejected =>
        exact Bool.or_eq_false_iff.mpr ⟨unlucky i,by rw [rejected]; rfl⟩
      | cachedToken | storeToken | invalidateToken | now | count => exact unlucky i
    intro j
    dsimp only
    by_cases equal : j = i
    · subst j
      rw [Function.update_self]
      exact own
    · rw [Function.update_of_ne equal]
      exact unlucky j

end Denial

section Samples

def roleUrl : String := "http://localhost:8529/_db/_system/_admin/server/role"
def fetching : OperationTask Unit := .call (.fetch roleUrl) fun _ => done ()
def before : World Unit := ⟨some ⟨"stale",none⟩,0,false,fun _ => false,["stale"]⟩
end Samples
end ArangoDataTools.TokenDenials
