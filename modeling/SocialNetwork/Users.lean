import SocialNetwork.PostStorage

/-!
# Registered users and their cache keys

The collection `user.user` and the memcached server that `user.go` and
`usermention.go` share.  Two entries are kept for a user, under the username
with a suffix.
-/

namespace SocialNetwork.Users

open Json

export PostStorage (Memcached getMulti)

def loginKey (username : String) : String := username ++ ":login"

def userIDKey (username : String) : String := username ++ ":user_id"

theorem loginKey_injective : Function.Injective loginKey :=
  fun _ _ h => (String.append_left_inj _).mp h

theorem userIDKey_injective : Function.Injective userIDKey :=
  fun _ _ h => (String.append_left_inj _).mp h

@[simp] theorem loginKey_inj {u v : String} :
    loginKey u = loginKey v ↔ u = v :=
  loginKey_injective.eq_iff

@[simp] theorem userIDKey_inj {u v : String} :
    userIDKey u = userIDKey v ↔ u = v :=
  userIDKey_injective.eq_iff

/-- The keys of the two kinds end in different characters. -/
theorem loginKey_ne_userIDKey (u v : String) :
    loginKey u ≠ userIDKey v := by
  intro h
  have hlast := congrArg (fun text => text.toList.getLast?) h
  simp [loginKey, userIDKey] at hlast

theorem userIDKey_ne_loginKey (u v : String) :
    userIDKey u ≠ loginKey v :=
  (loginKey_ne_userIDKey v u).symm

/-- `Find` with the filter `username ∈ names`.  MongoDB chooses the order of
the matching documents. -/
structure FindOrder where
  find : List User → Finset String → List User
  perm : ∀ users names,
    (find users names).Perm (users.filter fun user => user.username ∈ names)

def FindOrder.natural : FindOrder where
  find users names := users.filter fun user => user.username ∈ names
  perm _ _ := List.Perm.refl _

/-- The id under which a username is registered. -/
def registeredID (users : List User) (username : String) : Option Int64 :=
  (users.find? fun user => user.username = username).map User.userID

theorem registeredID_eq_some_iff {users : List User}
    (hdistinct : (users.map User.username).Nodup) {username : String}
    {userID : Int64} :
    registeredID users username = some userID ↔
      ∃ user ∈ users, user.username = username ∧ user.userID = userID := by
  unfold registeredID
  rw [Option.map_eq_some_iff]
  constructor
  · intro hfind
    obtain ⟨user, hfind, hid⟩ := hfind
    have hname := List.find?_some hfind
    rw [decide_eq_true_eq] at hname
    exact ⟨user, List.mem_of_find?_eq_some hfind, hname, hid⟩
  · intro huser
    obtain ⟨user, hmem, hname, hid⟩ := huser
    cases hfind : users.find? fun user => user.username = username with
    | none =>
        have hnot := List.find?_eq_none.mp hfind user hmem
        rw [decide_eq_true_eq] at hnot
        exact absurd hname hnot
    | some found =>
        have hfound := List.find?_some hfind
        rw [decide_eq_true_eq] at hfound
        have hsame : found = user :=
          List.inj_on_of_nodup_map hdistinct
            (List.mem_of_find?_eq_some hfind) hmem (hfound.trans hname.symm)
        exact ⟨found, rfl, by rw [hsame, hid]⟩

/-- The entries for user ids hold the true ids. -/
def HoldsTrueIDs (users : List User) (cache : Memcached) : Prop :=
  ∀ username json, cache (userIDKey username) = some json →
    ∃ user ∈ users, user.username = username ∧ json = marshal user.userID

end SocialNetwork.Users
