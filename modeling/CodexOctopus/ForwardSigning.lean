import CodexOctopus.OwnerForward

/-!
# What the signature of a forwarded request covers

What is signed is `"|".join(...)` of the fields of the context and of the digest of the
payload. A field may have a `|` of its own, and an absent field and an empty one are
written alike.
-/

namespace CodexOctopus

open List Python

/-! ## The signed fields -/

def BarFree (s : String) : Prop := '|' ∉ s.toList

instance (s : String) : Decidable (BarFree s) := inferInstanceAs (Decidable ('|' ∉ s.toList))

namespace ForwardContext

structure Plain (ctx : ForwardContext) : Prop where
  origin : BarFree ctx.originInstance
  target : BarFree ctx.targetInstance
  turnState : BarFree (ctx.downstreamTurnState.getD "")
  affinityKind : BarFree (ctx.originalAffinityKind.getD "")
  reservationId : BarFree ((ctx.reservation.map ReservationData.reservationId).getD "")
  keyId : BarFree ((ctx.reservation.map ReservationData.keyId).getD "")
  model : BarFree ((ctx.reservation.map ReservationData.model).getD "")

structure Filled (ctx : ForwardContext) : Prop where
  turnState : ctx.downstreamTurnState ≠ some ""
  affinityKind : ctx.originalAffinityKind ≠ some ""
  affinityKey : ctx.originalAffinityKey ≠ some ""
  reservation : ctx.reservation ≠ some ⟨"", "", ""⟩

end ForwardContext

theorem filled_contextFromHeaders (headers : Headers) : (contextFromHeaders headers).Filled where
  turnState := optionalHeader_ne_some_empty
  affinityKind := optionalHeader_ne_some_empty
  affinityKey := optionalHeader_ne_some_empty
  reservation := by
    intro h
    simp only [contextFromHeaders, reservationFromHeaders] at h
    split at h
    · next hid _ _ =>
      obtain ⟨rfl, -, -⟩ := ReservationData.mk.inj (Option.some.inj h)
      exact optionalHeader_ne_some_empty hid
    · cases h

theorem eq_of_getD_eq {a b : Option String} (ha : a ≠ some "") (hb : b ≠ some "")
    (h : a.getD "" = b.getD "") : a = b := by
  cases a with
  | none =>
    cases b with
    | none => rfl
    | some t => exact absurd (congrArg some h.symm) hb
  | some s =>
    cases b with
    | none => exact absurd (congrArg some h) ha
    | some t => exact congrArg some h

theorem reservation_eq {a b : Option ReservationData} (ha : a ≠ some ⟨"", "", ""⟩)
    (hb : b ≠ some ⟨"", "", ""⟩)
    (hid : (a.map ReservationData.reservationId).getD "" =
      (b.map ReservationData.reservationId).getD "")
    (hkey : (a.map ReservationData.keyId).getD "" = (b.map ReservationData.keyId).getD "")
    (hmodel : (a.map ReservationData.model).getD "" = (b.map ReservationData.model).getD "") :
    a = b := by
  cases a with
  | none =>
    cases b with
    | none => rfl
    | some r =>
      obtain ⟨i, k, m⟩ := r
      obtain rfl : "" = i := hid
      obtain rfl : "" = k := hkey
      obtain rfl : "" = m := hmodel
      exact absurd rfl hb
  | some q =>
    obtain ⟨i, k, m⟩ := q
    cases b with
    | none =>
      obtain rfl : i = "" := hid
      obtain rfl : k = "" := hkey
      obtain rfl : m = "" := hmodel
      exact absurd rfl ha
    | some r =>
      obtain ⟨i', k', m'⟩ := r
      obtain rfl : i = i' := hid
      obtain rfl : k = k' := hkey
      obtain rfl : m = m' := hmodel
      rfl

theorem barFree_flag (b : Bool) : BarFree (if b then "1" else "0") := by
  cases b <;> decide

theorem flag_injective {a b : Bool} (h : (if a then "1" else "0") = if b then "1" else "0") :
    a = b := by
  cases a <;> cases b <;> first | rfl | exact absurd h (by decide)

theorem barFree_sha256 (c : ForwardCrypto) (s : String) : BarFree (c.sha256 s) := by
  intro h
  exact absurd (c.sha256_hex s _ h) (by decide)

theorem toList_signingPayload (c : ForwardCrypto) (payload : Json) (ctx : ForwardContext) :
    (signingPayload c payload ctx).toList =
      ctx.originInstance.toList ++ '|' :: (ctx.targetInstance.toList ++ '|' ::
        ((if ctx.codexSessionAffinity then "1" else "0").toList ++ '|' ::
          ((ctx.downstreamTurnState.getD "").toList ++ '|' ::
            ((ctx.originalAffinityKind.getD "").toList ++ '|' ::
              ((ctx.originalAffinityKey.getD "").toList ++ '|' ::
                (((ctx.reservation.map ReservationData.reservationId).getD "").toList ++ '|' ::
                  (((ctx.reservation.map ReservationData.keyId).getD "").toList ++ '|' ::
                    (((ctx.reservation.map ReservationData.model).getD "").toList ++ '|' ::
                      (c.sha256 payload.dumps).toList)))))))) := by
  rw [signingPayload, join, String.toList_ofList]
  simp only [map_cons, map_nil, List.intercalate, intersperse_cons_cons,
    intersperse_singleton, flatten_cons, flatten_nil, append_nil,
    show "|".toList = ['|'] from rfl, cons_append, nil_append]

theorem plain_of_signingPayload_eq {c : ForwardCrypto} {payload payload' : Json}
    {ctx ctx' : ForwardContext} (hplain : ctx.Plain)
    (hkey : BarFree (ctx.originalAffinityKey.getD ""))
    (h : signingPayload c payload ctx = signingPayload c payload' ctx') : ctx'.Plain := by
  have hcount := congrArg (fun s => s.toList.count '|') h
  simp only [toList_signingPayload, count_append, count_cons_self,
    count_eq_zero.mpr hplain.origin, count_eq_zero.mpr hplain.target,
    count_eq_zero.mpr hplain.turnState, count_eq_zero.mpr hplain.affinityKind,
    count_eq_zero.mpr hkey, count_eq_zero.mpr hplain.reservationId,
    count_eq_zero.mpr hplain.keyId, count_eq_zero.mpr hplain.model,
    count_eq_zero.mpr (barFree_flag _), count_eq_zero.mpr (barFree_sha256 c _)] at hcount
  constructor <;> refine count_eq_zero.mp ?_ <;> omega

/-- **The signing string is injective** in plain contexts without empty fields: they are read off
from both ends. -/
theorem signingPayload_injective {c : ForwardCrypto} {payload payload' : Json}
    {ctx ctx' : ForwardContext} (hplain : ctx.Plain) (hplain' : ctx'.Plain) (hfilled : ctx.Filled)
    (hfilled' : ctx'.Filled) (h : signingPayload c payload ctx = signingPayload c payload' ctx') :
    ctx = ctx' ∧ payload.canon = payload'.canon := by
  have hchars := congrArg String.toList h
  rw [toList_signingPayload, toList_signingPayload] at hchars
  obtain ⟨horigin, hchars⟩ := append_sep_left hplain.origin hplain'.origin hchars
  obtain ⟨htarget, hchars⟩ := append_sep_left hplain.target hplain'.target hchars
  obtain ⟨hflag, hchars⟩ := append_sep_left (barFree_flag _) (barFree_flag _) hchars
  obtain ⟨hturn, hchars⟩ := append_sep_left hplain.turnState hplain'.turnState hchars
  obtain ⟨hkind, hchars⟩ := append_sep_left hplain.affinityKind hplain'.affinityKind hchars
  simp only [← cons_append, ← append_assoc] at hchars
  obtain ⟨hchars, hdigest⟩ :=
    append_sep_right (barFree_sha256 c _) (barFree_sha256 c _) hchars
  obtain ⟨hchars, hmodel⟩ := append_sep_right hplain.model hplain'.model hchars
  obtain ⟨hchars, hkeyId⟩ := append_sep_right hplain.keyId hplain'.keyId hchars
  obtain ⟨hkey, hid⟩ := append_sep_right hplain.reservationId hplain'.reservationId hchars
  have hturn := eq_of_getD_eq hfilled.turnState hfilled'.turnState (String.toList_inj.mp hturn)
  have hkind :=
    eq_of_getD_eq hfilled.affinityKind hfilled'.affinityKind (String.toList_inj.mp hkind)
  have hkey := eq_of_getD_eq hfilled.affinityKey hfilled'.affinityKey (String.toList_inj.mp hkey)
  have hres := reservation_eq hfilled.reservation hfilled'.reservation
    (String.toList_inj.mp hid) (String.toList_inj.mp hkeyId) (String.toList_inj.mp hmodel)
  have hpayload := c.sha256_injective (String.toList_inj.mp hdigest)
  refine ⟨?_, Json.canon_eq_of_dumps_eq hpayload⟩
  cases ctx
  cases ctx'
  simp only [ForwardContext.mk.injEq]
  exact ⟨String.toList_inj.mp horigin, String.toList_inj.mp htarget,
    flag_injective (String.toList_inj.mp hflag), hturn, hkind, hkey, hres⟩

def spell (s : List Char) : List Char :=
  s.flatMap fun c => List.replicate c.toNat 'a' ++ ['b']

theorem spell_injective : Function.Injective spell := by
  intro s t h
  induction s generalizing t with
  | nil =>
    cases t with
    | nil => rfl
    | cons d t => simp [spell] at h
  | cons c s ih =>
    cases t with
    | nil => simp [spell] at h
    | cons d t =>
      simp only [spell, flatMap_cons, append_assoc, cons_append,
        nil_append] at h
      obtain ⟨hcd, hst⟩ := append_sep_left (by simp [mem_replicate])
        (by simp [mem_replicate]) h
      have hnat : c.toNat = d.toNat := by simpa using congrArg List.length hcd
      rw [Char.toNat_inj.mp hnat, ih hst]

theorem isHex_of_mem_spell {s : List Char} {c : Char} (h : c ∈ spell s) : isHex c = true := by
  obtain ⟨d, -, hc⟩ := mem_flatMap.mp h
  obtain hc | hc := mem_append.mp hc
  · rw [eq_of_mem_replicate hc]
    rfl
  · rw [mem_singleton.mp hc]
    rfl

def spelled : ForwardCrypto where
  sha256 s := String.ofList (spell s.toList)
  hmac s := String.ofList ('c' :: spell s.toList)
  sha256_injective s t h := String.toList_inj.mp (spell_injective (String.ofList_inj.mp h))
  hmac_injective s t h := by
    have hcons := String.ofList_inj.mp h
    exact String.toList_inj.mp (spell_injective (tail_eq_of_cons_eq hcons))
  sha256_hex s c h := by
    rw [String.toList_ofList] at h
    exact isHex_of_mem_spell h
  hmac_hex s c h := by
    rw [String.toList_ofList] at h
    obtain rfl | h := mem_cons.mp h
    · rfl
    · exact isHex_of_mem_spell h
  hmac_ne s h := by
    have hlist := congrArg String.toList h
    rw [String.toList_ofList] at hlist
    cases hlist

def pinnedContext (turnState kind key : String) : ForwardContext where
  originInstance := "origin"
  targetInstance := "owner"
  codexSessionAffinity := true
  downstreamTurnState := some turnState
  originalAffinityKind := some kind
  originalAffinityKey := some key
  reservation := some ⟨"r1", "k1", "gpt-5"⟩

theorem carries_pinnedContext {turnState kind key : String} (hturn : Clean turnState)
    (hkind : Clean kind) (hkey : Clean key) :
    Carries ⟨[("host", "h")]⟩ (pinnedContext turnState kind key) where
  cased := by
    intro name _ x hx hlower
    obtain rfl := mem_singleton.mp hx
    exact (by decide : lower "host" = "host") ▸ hlower
  origin := (by decide : Clean "origin")
  target := (by decide : Clean "owner")
  turnState := by
    rintro _ ⟨⟩
    exact hturn
  noTurnState := by
    rintro ⟨⟩
  affinity := ⟨kind, key, rfl, hkind, rfl, hkey⟩
  reservation := by
    rintro _ ⟨⟩
    decide
  noReservation := by
    rintro ⟨⟩

end CodexOctopus
