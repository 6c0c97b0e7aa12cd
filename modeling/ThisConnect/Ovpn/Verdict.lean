/-
  ThisConnect.Ovpn.Verdict
  **WHAT AN ACCEPTED DIRECTIVE BECOMES.**
-/
import ThisConnect.Ovpn.Parse

namespace ThisConnect.Ovpn

open Text Net Numeral

/-! ## §1. The eight verdicts. -/

def verbatimNames : List String :=
  flags ++ ["keepalive", "connect-retry", "resolv-retry", "explicit-exit-notify"]
    ++ ranges.map Prod.fst ++ ["proto", "dev"] ++ choices.map Prod.fst
    ++ ["verify-x509-name"] ++ tokenLists

def emittedNames : List String :=
  verbatimNames ++ ["verb", "peer-fingerprint", "http-proxy", "socks-proxy", "remote",
    "auth-user-pass", "static-challenge"]

inductive Verdict (ctx : Ctx) (name : String) (args : List String) : Classified → Prop where
  | verbatim (hname : name ∈ verbatimNames) (hlen : args.length ≤ maxArgs) :
      Verdict ctx name args (.emit ⟨name, args⟩)
  | verb (arg : String) (v : Nat) (hname : name = "verb") (hargs : args = [arg])
      (hv : parseU32In ctx arg 0 11 = .ok v) :
      Verdict ctx name args (.emit ⟨name, [(min v 4).repr]⟩)
  | fingerprint (arg : String) (hname : name = "peer-fingerprint") (hargs : args = [arg])
      (hhex : looksHex arg.toList = true) :
      Verdict ctx name args (.emit ⟨name, [toAsciiUppercase arg]⟩)
  | proxy (out : List String) (hname : name = "http-proxy" ∨ name = "socks-proxy")
      (hout : parseProxy ctx args = .ok out) : Verdict ctx name args (.emit ⟨name, out⟩)
  | remote (r : Remote) (hname : name = "remote") (hr : parseRemote ctx args = .ok r) :
      Verdict ctx name args (.remote r)
  | authUserPass (hname : name = "auth-user-pass") (hargs : args = []) :
      Verdict ctx name args .authUserPass
  | staticChallenge (c : StaticChallenge) (hname : name = "static-challenge")
      (hc : parseStaticChallenge ctx args = .ok c) : Verdict ctx name args (.staticChallenge c)
  | retained (c : Classified) (hc : c.emitted = none) : Verdict ctx name args c

/-! ## §2. Small inversions. -/

variable {ctx : Ctx} {args : List String}

theorem expectArity_ok {min max : Nat} (h : expectArity ctx args min max = .ok ()) :
    min ≤ args.length ∧ args.length ≤ max := by
  rw [expectArity] at h
  obtain ⟨_, h⟩ := ok_of_unless h
  omega

theorem length_le_of_arity {min max : Nat} {rest : Unit → Except ValidationError Unit}
    (h : (expectArity ctx args min max).bind rest = .ok ()) (hmax : max ≤ maxArgs) :
    args.length ≤ maxArgs := by
  obtain ⟨_, harity, -⟩ := ok_of_bind h
  exact (expectArity_ok harity).2.trans hmax

theorem eq_singleton_of_arity (h : expectArity ctx args 1 1 = .ok ()) :
    args = [args.getD 0 ""] := by
  obtain ⟨hmin, hmax⟩ := expectArity_ok h
  match args, hmin, hmax with
  | [arg], _, _ => rfl

theorem emitAfter_ok {check : Except ValidationError Unit} {name : String} {c : Classified}
    (h : emitAfter check name args = some (.ok c)) : check = .ok () ∧ c = .emit ⟨name, args⟩ := by
  injection h with h
  obtain ⟨u, hu, hc⟩ := ok_of_map h
  exact ⟨hu, hc.symm⟩

theorem mem_map_fst_of_find? {β : Type} {table : List (String × β)} {name : String}
    {entry : String × β} (h : table.find? (fun entry => entry.1 == name) = some entry) :
    name ∈ table.map Prod.fst := by
  have hname : entry.1 = name := by simpa using List.find?_some h
  exact hname ▸ List.mem_map_of_mem (List.mem_of_find?_eq_some h)

/-! ## §3. One handler at a time. -/

variable {name : String} {c : Classified}

theorem asFlag_verdict (h : asFlag ctx name args = some (.ok c)) : Verdict ctx name args c := by
  rw [asFlag] at h
  split at h
  · next hname =>
    split at h
    · simp at h
    · next hargs =>
      injection h with h
      injection h with h
      subst h
      exact .authUserPass hname (by simpa using hargs)
  · obtain ⟨hflag, h⟩ := some_of_unless h
    obtain ⟨hcheck, hc⟩ := emitAfter_ok h
    have hargs : args = [] := by
      rw [expectNoArgs] at hcheck
      obtain ⟨hempty, hcheck⟩ := ok_of_guard hcheck
      exact List.isEmpty_iff.mp hempty
    have hmem : name ∈ flags := by simpa using hflag
    subst hc hargs
    exact .verbatim (by simp [verbatimNames, hmem]) (by simp)

theorem asNumber_verdict (h : asNumber ctx name args = some (.ok c)) :
    Verdict ctx name args c := by
  unfold asNumber at h
  split at h
  · injection h with h
    obtain ⟨_, harity, h⟩ := ok_of_bind h
    obtain ⟨v, hv, h⟩ := ok_of_bind h
    injection h with h
    subst h
    exact .verb _ v rfl (eq_singleton_of_arity harity) hv
  · obtain ⟨hcheck, rfl⟩ := emitAfter_ok h
    exact .verbatim (by decide) (length_le_of_arity hcheck (by decide))
  · obtain ⟨hcheck, rfl⟩ := emitAfter_ok h
    exact .verbatim (by decide) (length_le_of_arity hcheck (by decide))
  · obtain ⟨hcheck, rfl⟩ := emitAfter_ok h
    exact .verbatim (by decide) (length_le_of_arity hcheck (by decide))
  · obtain ⟨hcheck, rfl⟩ := emitAfter_ok h
    exact .verbatim (by decide) (length_le_of_arity hcheck (by decide))
  · obtain ⟨⟨n, lo, hi⟩, hfind, h⟩ := Option.bind_eq_some_iff.mp h
    obtain ⟨hcheck, rfl⟩ := emitAfter_ok h
    exact .verbatim (by simp [verbatimNames, mem_map_fst_of_find? hfind])
      (length_le_of_arity hcheck (by decide))

theorem asKeyword_verdict (h : asKeyword ctx name args = some (.ok c)) :
    Verdict ctx name args c := by
  unfold asKeyword at h
  split at h
  · injection h with h
    injection h with h
    subst h
    exact .retained _ rfl
  · injection h with h
    injection h with h
    subst h
    exact .retained _ rfl
  · injection h with h
    obtain ⟨p, hp, rfl⟩ := ok_of_map h
    obtain ⟨_, harity, hp⟩ := ok_of_bind hp
    obtain ⟨_, -, hp⟩ := ok_of_bind hp
    injection hp with hp
    rw [← hp, ← eq_singleton_of_arity harity]
    exact .verbatim (by decide) ((expectArity_ok harity).2.trans (by decide))
  · injection h with h
    obtain ⟨d, hd, rfl⟩ := ok_of_map h
    obtain ⟨_, harity, hd⟩ := ok_of_bind hd
    dsimp only at hd
    obtain ⟨_, hd⟩ := ok_of_guard hd
    injection hd with hd
    rw [← hd, ← eq_singleton_of_arity harity]
    exact .verbatim (by decide) ((expectArity_ok harity).2.trans (by decide))
  · obtain ⟨⟨n, allowed⟩, hfind, h⟩ := Option.bind_eq_some_iff.mp h
    obtain ⟨hcheck, rfl⟩ := emitAfter_ok h
    refine .verbatim (by simp [verbatimNames, mem_map_fst_of_find? hfind])
      (length_le_of_arity hcheck ?_)
    split <;> decide

theorem asCrypto_verdict (h : asCrypto ctx name args = some (.ok c)) :
    Verdict ctx name args c := by
  unfold asCrypto at h
  split at h
  · injection h with h
    obtain ⟨fp, hfp, rfl⟩ := ok_of_map h
    obtain ⟨_, harity, hfp⟩ := ok_of_bind hfp
    dsimp only at hfp
    obtain ⟨hhex, ⟨⟩⟩ := ok_of_guard hfp
    exact .fingerprint _ rfl (eq_singleton_of_arity harity) hhex
  · obtain ⟨hcheck, rfl⟩ := emitAfter_ok h
    exact .verbatim (by decide) (length_le_of_arity hcheck (by decide))
  · obtain ⟨hlist, h⟩ := some_of_unless h
    have hmem : name ∈ tokenLists := by simpa using hlist
    obtain ⟨hcheck, rfl⟩ := emitAfter_ok h
    refine .verbatim (by simp [verbatimNames, hmem]) ((expectArity_ok hcheck).2.trans ?_)
    split <;> decide

theorem asTyped_verdict (h : asTyped ctx name args = some (.ok c)) : Verdict ctx name args c := by
  unfold asTyped at h
  split at h
  · injection h with h
    obtain ⟨r, hr, rfl⟩ := ok_of_map h
    exact .remote r rfl hr
  · injection h with h
    obtain ⟨r, -, rfl⟩ := ok_of_map h
    exact .retained _ rfl
  · injection h with h
    injection h with h
    subst h
    exact .retained _ rfl
  · injection h with h
    obtain ⟨o, -, rfl⟩ := ok_of_map h
    exact .retained _ rfl
  · injection h with h
    obtain ⟨ch, hch, rfl⟩ := ok_of_map h
    exact .staticChallenge ch rfl hch
  · injection h with h
    obtain ⟨out, hout, rfl⟩ := ok_of_map h
    exact .proxy out (Or.inl rfl) hout
  · injection h with h
    obtain ⟨out, hout, rfl⟩ := ok_of_map h
    exact .proxy out (Or.inr rfl) hout
  · simp at h

theorem handle_verdict (h : handle ctx name args = some (.ok c)) : Verdict ctx name args c := by
  obtain ⟨handler, hmem, h⟩ := List.exists_of_findSome?_eq_some h
  simp only [handlers, List.mem_cons, List.not_mem_nil, or_false] at hmem
  rcases hmem with rfl | rfl | rfl | rfl | rfl
  · exact asFlag_verdict h
  · exact asNumber_verdict h
  · exact asKeyword_verdict h
  · exact asCrypto_verdict h
  · exact asTyped_verdict h

theorem classify_ok {raw : RawDirective} {scope : Scope} {c : Classified}
    (h : classify raw scope = .ok c) :
    dangerReason raw.name raw.args = none
      ∧ checkCharset ⟨raw.line, raw.name⟩ raw.args = .ok ()
      ∧ (scope = .connection → raw.name ∈ connectionScoped)
      ∧ handle ⟨raw.line, raw.name⟩ raw.name raw.args = some (.ok c) := by
  obtain ⟨_, hdanger, h⟩ := ok_of_bind h
  obtain ⟨_, hcharset, h⟩ := ok_of_bind h
  have hreason : dangerReason raw.name raw.args = none := by
    rw [rejectDangerous] at hdanger
    split at hdanger
    · simp at hdanger
    · next hnone => exact hnone
  refine ⟨hreason, hcharset, ?_, ?_⟩
  · intro hscope
    obtain ⟨hscoped, h⟩ := ok_of_unless h
    simpa [hscope] using hscoped
  · obtain ⟨_, h⟩ := ok_of_unless h
    split at h
    · next result hresult => rw [hresult, h]
    · simp at h

end ThisConnect.Ovpn
