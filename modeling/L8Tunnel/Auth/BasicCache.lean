import L8Tunnel.Auth.Access
import L8Tunnel.Base.Mac

/-! # The cache of basic-auth credentials (auth/access.go) -/

namespace L8Tunnel.Auth
open Base

structure Hashing where
  sha256 : List UInt8 → List UInt8
  bcrypt : List UInt8 → List UInt8 → Bool

/-- The part of `Access` that `CheckBasic` uses, over byte strings: a password is any bytes. -/
structure Logins where
  users : GoMap (List UInt8) (List UInt8) := ∅
  verified : GoMap (List UInt8) ℤ := ∅

structure Login where
  now : ℤ
  user : List UInt8
  password : List UInt8

def Login.message (l : Login) : List UInt8 := l.user ++ 0 :: l.password

namespace Logins

def swept (s : Logins) (now : ℤ) : GoMap (List UInt8) ℤ :=
  s.verified.keys.foldl
    (fun m d => if (m.get d).any (fun exp => exp < now) then m.del d else m) s.verified

def checkBasic (h : Hashing) (s : Logins) (l : Login) : Bool × Logins :=
  let digest := h.sha256 l.message
  if (s.verified.get digest).any fun exp => l.now < exp then (true, s)
  else match s.users.get l.user with
    | none => (false, s)
    | some hash =>
      if h.bcrypt hash l.password = false then (false, s)
      else (true, { s with verified := (s.swept l.now).set digest (l.now + basicCacheTTL) })

def answers (h : Hashing) : Logins → List Login → List Bool
  | _, [] => []
  | s, l :: ls => (checkBasic h s l).1 :: answers h (checkBasic h s l).2 ls

def passes (h : Hashing) (users : GoMap (List UInt8) (List UInt8)) (l : Login) : Bool :=
  (users.get l.user).any fun hash => h.bcrypt hash l.password

/-- The byte-level state is that of an `Access` whose names and passwords are texts. -/
structure Matches (a : Access) (s : Logins) : Prop where
  users : ∀ user, s.users.get (Bytes.ofString user) = a.users.get user
  verified : s.verified = a.verified

theorem checkBasic_text {c : Crypto} {h : Hashing} (hsha : h.sha256 = c.sha256)
    (hbcrypt : ∀ hash password, h.bcrypt hash (Bytes.ofString password) = c.bcrypt hash password)
    {a : Access} {s : Logins} (hs : Matches a s) (now : ℤ) (user password : String) :
    (checkBasic h s ⟨now, Bytes.ofString user, Bytes.ofString password⟩).1 =
      (a.checkBasic c now user password).1 ∧
    Matches (a.checkBasic c now user password).2
      (checkBasic h s ⟨now, Bytes.ofString user, Bytes.ofString password⟩).2 := by
  have hmessage : Bytes.ofString user ++ [0] ++ Bytes.ofString password =
      (⟨now, Bytes.ofString user, Bytes.ofString password⟩ : Login).message :=
    List.append_assoc _ _ _
  have hswept : s.swept now = a.swept now := by
    unfold swept Access.swept
    rw [hs.verified]
  unfold checkBasic Access.checkBasic
  dsimp only
  rw [hsha, hmessage, hs.verified, hs.users]
  split
  · exact ⟨rfl, hs⟩
  cases a.users.get user with
  | none => exact ⟨rfl, hs⟩
  | some hash =>
    dsimp only
    rw [hbcrypt]
    split
    · exact ⟨rfl, hs⟩
    · refine ⟨rfl, hs.users, ?_⟩
      rw [hswept]

def Right (h : Hashing) (ls : List Login) (s : Logins) : Prop :=
  ∀ d exp, s.verified.get d = some exp →
    ∃ l ∈ ls, d = h.sha256 l.message ∧ passes h s.users l = true

def CollisionFree (h : Hashing) (ls : List Login) : Prop :=
  ∀ l ∈ ls, ∀ l' ∈ ls, h.sha256 l.message = h.sha256 l'.message → l.message = l'.message

/-- No two logins of different users give one message. -/
def Framed (ls : List Login) : Prop :=
  ∀ l ∈ ls, ∀ l' ∈ ls, l.message = l'.message → l.user = l'.user

theorem framed_of_no_zero {ls : List Login} (h : ∀ l ∈ ls, 0 ∉ l.user) : Framed ls :=
  fun l hl l' hl' hmessage => (Mac.frame_first (h l hl) (h l' hl') hmessage).1

section
variable {h : Hashing} {ls : List Login} {s : Logins} {l : Login}

theorem same_password {l l' : Login} (hmessage : l.message = l'.message) (huser : l.user = l'.user) :
    l.password = l'.password := by
  unfold Login.message at hmessage
  rw [huser] at hmessage
  exact (List.cons.inj (List.append_cancel_left hmessage)).2

theorem Right.swept (hs : Right h ls s) (now : ℤ) (d : List UInt8) (exp : ℤ)
    (hd : (s.swept now).get d = some exp) :
    ∃ l ∈ ls, d = h.sha256 l.message ∧ passes h s.users l = true := by
  unfold Logins.swept at hd
  rw [GoMap.get_foldl_del_if] at hd
  split at hd
  · cases hd
  · exact hs d exp hd

theorem Right.checkBasic (hs : Right h ls s) (hl : l ∈ ls) : Right h ls (checkBasic h s l).2 := by
  unfold Logins.checkBasic
  dsimp only
  split
  · exact hs
  split
  · exact hs
  next hash huser =>
  split
  · exact hs
  next hpass =>
  intro d exp hd
  dsimp only at hd
  rw [GoMap.get_set_eq_ite] at hd
  split at hd
  next heq =>
    refine ⟨l, hl, heq, ?_⟩
    unfold passes
    rw [huser, Option.any_some]
    exact Bool.not_eq_false _ ▸ hpass
  next => exact hs.swept l.now d exp hd

theorem users_checkBasic (h : Hashing) (s : Logins) (l : Login) :
    (Logins.checkBasic h s l).2.users = s.users := by
  unfold Logins.checkBasic
  dsimp only
  split
  · rfl
  split
  · rfl
  split
  · rfl
  · rfl

theorem checkBasic_eq (hs : Right h ls s) (hfree : CollisionFree h ls) (hframed : Framed ls)
    (hl : l ∈ ls) : (Logins.checkBasic h s l).1 = passes h s.users l := by
  unfold Logins.checkBasic
  dsimp only
  split
  next hcached =>
    obtain ⟨exp, hget, -⟩ := (Option.any_eq_true _ _).mp hcached
    obtain ⟨l', hl', hdigest, hpass⟩ := hs _ exp hget
    have hmessage := hfree l hl l' hl' hdigest
    have huser := hframed l hl l' hl' hmessage
    unfold passes at hpass ⊢
    rw [huser, same_password hmessage huser]
    exact hpass.symm
  · unfold passes
    cases s.users.get l.user with
    | none => rfl
    | some hash =>
      dsimp only
      rw [Option.any_some]
      cases h.bcrypt hash l.password with
      | false => rfl
      | true => rfl

theorem answers_eq (hs : Right h ls s) (hfree : CollisionFree h ls) (hframed : Framed ls)
    {todo : List Login} (htodo : ∀ l ∈ todo, l ∈ ls) :
    answers h s todo = todo.map (passes h s.users) := by
  induction todo generalizing s with
  | nil => rfl
  | cons l todo ih =>
    have hl := htodo l List.mem_cons_self
    have hrest := ih (hs.checkBasic hl) fun l' hl' => htodo l' (List.mem_cons_of_mem _ hl')
    rw [users_checkBasic] at hrest
    rw [answers, checkBasic_eq hs hfree hframed hl, hrest, List.map_cons]

/-- The calls on a policy as `ParseAccess` makes it. -/
theorem basic_cache_transparent (h : Hashing) (users : GoMap (List UInt8) (List UInt8))
    {ls : List Login} (hfree : CollisionFree h ls) (hframed : Framed ls) :
    answers h { users := users } ls = ls.map (passes h users) := by
  have hnew : Right h ls { users := users } := by
    intro d exp hd
    rw [GoMap.get_empty] at hd
    cases hd
  exact answers_eq hnew hfree hframed fun l hl => hl

end

def plain : Hashing := { sha256 := fun m => m, bcrypt := fun hash password => hash = password }
def oneUser : GoMap (List UInt8) (List UInt8) := GoMap.set ∅ [97] [98, 0, 99]

theorem basic_cache_transparent_plain :
    answers plain { users := oneUser } [⟨0, [97], [98, 0, 99]⟩, ⟨1, [97], [98, 0, 99]⟩, ⟨2, [97], [98]⟩] =
      [true, true, false] := by
  have hfree : CollisionFree plain
      [⟨0, [97], [98, 0, 99]⟩, ⟨1, [97], [98, 0, 99]⟩, ⟨2, [97], [98]⟩] :=
    fun _ _ _ _ hdigest => hdigest
  refine (basic_cache_transparent plain oneUser hfree (framed_of_no_zero ?_)).trans rfl
  decide

/-- The password's first half moves to the username: no such user, but the cache
lets the login in. -/
theorem basic_cache_confuses :
    CollisionFree plain [⟨0, [97], [98, 0, 99]⟩, ⟨1, [97, 0, 98], [99]⟩] ∧
    answers plain { users := oneUser } [⟨0, [97], [98, 0, 99]⟩, ⟨1, [97, 0, 98], [99]⟩] =
      [true, true] ∧
    passes plain oneUser ⟨1, [97, 0, 98], [99]⟩ = false :=
  ⟨fun _ _ _ _ hdigest => hdigest, rfl, rfl⟩

end Logins
end L8Tunnel.Auth
