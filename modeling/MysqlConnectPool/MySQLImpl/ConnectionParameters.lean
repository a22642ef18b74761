import Mathlib.Data.Finset.Sort
import Mathlib.Data.List.Lex
import MysqlConnectPool.Db.UnquotedConnString
import MysqlConnectPool.MySQLImpl.MySQLResultImpl

/-! What the constructor of a connector takes out of its connection string. -/

namespace MysqlConnectPool.MySQLConnector

open DbConnection
open MySQLResultImpl (tolower)

def keyLe (a b : List UInt8) : Prop := a.map UInt8.toNat ≤ b.map UInt8.toNat

instance : DecidableRel keyLe := fun a b => inferInstanceAs (Decidable (a.map _ ≤ b.map _))

instance : IsTrans (List UInt8) keyLe := ⟨fun _ _ _ => le_trans⟩

instance : Std.Antisymm keyLe :=
  ⟨fun _ _ h h' => (List.map_injective_iff.mpr fun _ _ => UInt8.toNat_inj.mp) (le_antisymm h h')⟩

instance : Std.Total keyLe := ⟨fun _ _ => le_total _ _⟩

structure ConnectionParameters where
  host_ : List UInt8
  user_ : List UInt8
  dbname_ : List UInt8
  port_ : List UInt8
  passwd_ : List UInt8
  characterSet_ : List UInt8

namespace ConnectionParameters

def assign (c : ConnectionParameters) (key value : List UInt8) : ConnectionParameters :=
  if key = ascii "host" then { c with host_ := value }
  else if key = ascii "user" then { c with user_ := value }
  else if key = ascii "dbname" then { c with dbname_ := value }
  else if key = ascii "port" then { c with port_ := value }
  else if key = ascii "password" then { c with passwd_ := value }
  else if key = ascii "client_encoding" then { c with characterSet_ := value }
  else c

def ofParams (params : Params) : ConnectionParameters :=
  (params.keys.sort keyLe).foldl
    (fun c key => c.assign (key.map tolower) ((params.lookup key).getD [])) ⟨[], [], [], [], [], []⟩

def ofConnInfo (connInfo : List UInt8) : ConnectionParameters := ofParams (parseConnString connInfo)

end ConnectionParameters

inductive Parameter
  | host
  | user
  | dbname
  | port
  | password
  | client_encoding

def Parameter.key : Parameter → List UInt8
  | .host => ascii "host"
  | .user => ascii "user"
  | .dbname => ascii "dbname"
  | .port => ascii "port"
  | .password => ascii "password"
  | .client_encoding => ascii "client_encoding"

namespace ConnectionParameters

def get (c : ConnectionParameters) : Parameter → List UInt8
  | .host => c.host_
  | .user => c.user_
  | .dbname => c.dbname_
  | .port => c.port_
  | .password => c.passwd_
  | .client_encoding => c.characterSet_

theorem get_assign (c : ConnectionParameters) (key value : List UInt8) (p : Parameter) :
    (c.assign key value).get p = if key = p.key then value else c.get p := by
  by_cases hkey : key = p.key
  · subst hkey
    rw [if_pos rfl]
    cases p <;> rfl
  · rw [if_neg hkey]
    unfold assign
    cases p <;> repeat' split
    all_goals first | rfl | exact absurd ‹key = _› hkey

/-- The last key of the order counts, among those that name the parameter. -/
theorem get_foldl (value : List UInt8 → List UInt8) (keys : List (List UInt8))
    (hsorted : keys.Pairwise keyLe) (c : ConnectionParameters) (p : Parameter) :
    (∀ key ∈ keys, key.map tolower ≠ p.key) ∧
        (keys.foldl (fun c key => c.assign (key.map tolower) (value key)) c).get p = c.get p ∨
      ∃ key ∈ keys, key.map tolower = p.key ∧
        (∀ k ∈ keys, k.map tolower = p.key → keyLe k key) ∧
        (keys.foldl (fun c key => c.assign (key.map tolower) (value key)) c).get p = value key := by
  induction keys generalizing c with
  | nil => exact Or.inl ⟨nofun, rfl⟩
  | cons key keys ih =>
    obtain ⟨hfirst, hsorted⟩ := List.pairwise_cons.mp hsorted
    rw [List.foldl_cons]
    rcases ih hsorted (c.assign (key.map tolower) (value key)) with ⟨hnone, hget⟩ |
      ⟨last, hlast, hname, hgreatest, hget⟩
    · rw [get_assign] at hget
      by_cases hkey : key.map tolower = p.key
      · refine Or.inr ⟨key, List.mem_cons_self, hkey, fun k hk hname => ?_, hget.trans (if_pos hkey)⟩
        rcases List.mem_cons.mp hk with rfl | hk
        · exact le_refl _
        · exact absurd hname (hnone k hk)
      · refine Or.inl ⟨fun k hk => ?_, hget.trans (if_neg hkey)⟩
        rcases List.mem_cons.mp hk with rfl | hk
        · exact hkey
        · exact hnone k hk
    · refine Or.inr ⟨last, List.mem_cons_of_mem _ hlast, hname, fun k hk hkname => ?_, hget⟩
      rcases List.mem_cons.mp hk with rfl | hk
      · exact hfirst last hlast
      · exact hgreatest k hk hkname

end ConnectionParameters

theorem keyLe_tolower (key : List UInt8) : keyLe key (key.map tolower) := by
  induction key with
  | nil => exact le_refl _
  | cons c key ih =>
    have hc : c.toNat ≤ (tolower c).toNat := by
      unfold tolower
      split
      · next hupper =>
        have hle : c.toNat ≤ 90 := hupper.2
        rw [UInt8.toNat_add]
        change c.toNat ≤ (c.toNat + 32) % 256
        omega
      · exact Nat.le_refl _
    unfold keyLe at ih ⊢
    rw [List.map_cons, List.map_cons, List.map_cons]
    rcases Nat.lt_or_eq_of_le hc with hlt | heq
    · exact le_of_lt (List.Lex.rel hlt)
    · rw [← heq]
      exact List.cons_le_cons _ ih

theorem lookup_foldr_insert {pairs : List UnquotedPair} (hkeys : (pairs.map fun q => q.key).Nodup)
    (key : List UInt8) (value : List UInt8) :
    (pairs.foldr (fun q params => params.insert q.key q.value) (∅ : Params)).lookup key = some value ↔
      ∃ q ∈ pairs, q.key = key ∧ q.value = value := by
  induction pairs with
  | nil => simp
  | cons q pairs ih =>
    obtain ⟨hq, hkeys⟩ := List.nodup_cons.mp hkeys
    rw [List.foldr_cons]
    by_cases hkey : key = q.key
    · subst hkey
      rw [Finmap.lookup_insert]
      constructor
      · rintro ⟨⟩
        exact ⟨q, List.mem_cons_self, rfl, rfl⟩
      · rintro ⟨q', hq', hsame, rfl⟩
        rcases List.mem_cons.mp hq' with rfl | hq'
        · rfl
        · exact absurd (List.mem_map.mpr ⟨q', hq', hsame⟩) hq
    · rw [Finmap.lookup_insert_of_ne _ hkey, ih hkeys]
      constructor
      · rintro ⟨q', hq', hsame⟩
        exact ⟨q', List.mem_cons_of_mem _ hq', hsame⟩
      · rintro ⟨q', hq', hsame⟩
        rcases List.mem_cons.mp hq' with rfl | hq'
        · exact absurd hsame.1.symm hkey
        · exact ⟨q', hq', hsame⟩

/-- A connector takes the same parameters out of unquoted pairs in any order.  Where several keys
name a parameter but for their case, the greatest in the order of the map counts, which is the
one in lower case if it is there; a parameter that is not named is empty. -/
theorem connection_parameters {pairs : List UnquotedPair}
    (hkeys : (pairs.map fun q => q.key).Nodup) (p : Parameter) :
    (∀ pairs' : List UnquotedPair, pairs'.Perm pairs →
      ConnectionParameters.ofConnInfo (unquotedText pairs') =
        ConnectionParameters.ofConnInfo (unquotedText pairs)) ∧
    ((∀ q ∈ pairs, q.key.map tolower ≠ p.key) ∧
        (ConnectionParameters.ofConnInfo (unquotedText pairs)).get p = [] ∨
      ∃ q ∈ pairs, q.key.map tolower = p.key ∧
        (∀ q' ∈ pairs, q'.key.map tolower = p.key → keyLe q'.key q.key) ∧
        (ConnectionParameters.ofConnInfo (unquotedText pairs)).get p = q.value) ∧
    ∀ q ∈ pairs, q.key = p.key → (ConnectionParameters.ofConnInfo (unquotedText pairs)).get p = q.value := by
  have hparams : ∀ {pairs : List UnquotedPair}, (pairs.map fun q => q.key).Nodup →
      parseConnString (unquotedText pairs) =
        pairs.foldr (fun q params => params.insert q.key q.value) ∅ :=
    fun hkeys => parseFrom_unquotedText hkeys ∅
  have hlookup := lookup_foldr_insert hkeys
  have hmem : ∀ key, key ∈ (parseConnString (unquotedText pairs)).keys.sort keyLe ↔
      ∃ q ∈ pairs, q.key = key := by
    intro key
    rw [Finset.mem_sort, Finmap.mem_keys, ← Finmap.lookup_isSome, Option.isSome_iff_exists, hparams hkeys]
    constructor
    · rintro ⟨value, hvalue⟩
      obtain ⟨q, hq, hkey, -⟩ := (hlookup key value).mp hvalue
      exact ⟨q, hq, hkey⟩
    · rintro ⟨q, hq, hkey⟩
      exact ⟨q.value, (hlookup key q.value).mpr ⟨q, hq, hkey, rfl⟩⟩
  have hsome : (∀ q ∈ pairs, q.key.map tolower ≠ p.key) ∧
        (ConnectionParameters.ofConnInfo (unquotedText pairs)).get p = [] ∨
      ∃ q ∈ pairs, q.key.map tolower = p.key ∧
        (∀ q' ∈ pairs, q'.key.map tolower = p.key → keyLe q'.key q.key) ∧
        (ConnectionParameters.ofConnInfo (unquotedText pairs)).get p = q.value := by
    rcases ConnectionParameters.get_foldl
        (fun key => ((parseConnString (unquotedText pairs)).lookup key).getD []) _
        (Finset.pairwise_sort (parseConnString (unquotedText pairs)).keys keyLe) ⟨[], [], [], [], [], []⟩ p with
      ⟨hnone, hget⟩ | ⟨key, hkey, hname, hgreatest, hget⟩
    · refine Or.inl ⟨fun q hq => hnone q.key ((hmem q.key).mpr ⟨q, hq, rfl⟩), hget.trans ?_⟩
      cases p <;> rfl
    · obtain ⟨q, hq, rfl⟩ := (hmem key).mp hkey
      refine Or.inr ⟨q, hq, hname, fun q' hq' => hgreatest q'.key ((hmem q'.key).mpr ⟨q', hq', rfl⟩),
        hget.trans ?_⟩
      rw [hparams hkeys, (hlookup q.key q.value).mpr ⟨q, hq, rfl, rfl⟩, Option.getD_some]
  refine ⟨fun pairs' hperm => ?_, hsome, fun q hq hkey => ?_⟩
  · have hkeys' : (pairs'.map fun q => q.key).Nodup := (hperm.map _).nodup_iff.mpr hkeys
    rw [ConnectionParameters.ofConnInfo, ConnectionParameters.ofConnInfo, hparams hkeys', hparams hkeys]
    refine congrArg _ (Finmap.ext_lookup fun key => Option.ext fun value => ?_)
    rw [hlookup, lookup_foldr_insert hkeys']
    exact exists_congr fun q => and_congr_left' hperm.mem_iff
  · have hlower : p.key.map tolower = p.key := by
      cases p <;> decide
    rcases hsome with ⟨hnone, -⟩ | ⟨last, hlast, hname, hgreatest, hget⟩
    · exact absurd ((congrArg _ hkey).trans hlower) (hnone q hq)
    · -- the key in lower case is the greatest of its kind
      have hsame : last.key = q.key := by
        refine antisymm_of keyLe ?_ (hgreatest q hq ((congrArg _ hkey).trans hlower))
        rw [hkey, ← hname]
        exact keyLe_tolower last.key
      have hinj := List.inj_on_of_nodup_map hkeys hlast hq hsame
      rw [hget, hinj]

def lowerHost : UnquotedPair :=
  ⟨⟨[104, 111, 115, 116], [100, 98, 49], nofun, by simp [isWord], nofun⟩, by simp [DbConnection.isSpace, space]⟩

def upperHost : UnquotedPair :=
  ⟨⟨[72, 111, 115, 116], [100, 98, 50], nofun, by simp [isWord], nofun⟩, by simp [DbConnection.isSpace, space]⟩

theorem connection_parameters_host :
    (ConnectionParameters.ofConnInfo (unquotedText [lowerHost, upperHost])).host_ = [100, 98, 49] ∧
      (ConnectionParameters.ofConnInfo (unquotedText [lowerHost, upperHost])).user_ = [] := by
  have hkeys : ([lowerHost, upperHost].map fun q => q.key).Nodup := by decide
  obtain ⟨-, -, hhost⟩ := connection_parameters hkeys .host
  obtain ⟨-, huser, -⟩ := connection_parameters hkeys .user
  refine ⟨hhost lowerHost (by simp) rfl, ?_⟩
  rcases huser with ⟨-, huser⟩ | ⟨q, hq, hname, -⟩
  · exact huser
  · simp only [List.mem_cons, List.not_mem_nil, or_false] at hq
    rcases hq with rfl | rfl <;> exact absurd hname (by decide)

end MysqlConnectPool.MySQLConnector
