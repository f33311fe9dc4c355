import Sluice.Text.Basic

/-!
# Classes of letters

The tables hold the lengths of runs of code points of one class, with letters as digits, and tell the class of the next
run; a lookup halves the list of runs.
-/

namespace Sluice.Text

def hexNumber (s : Chars) : Nat := s.foldl (fun n c => 16 * n + (hexValue? c).getD 0) 0

/-- Where each run starts, and its class: one of three. -/
abbrev Runs := Array (Nat × Nat)

/-- The runs of a table. A length is written with capitals and a last digit: a small letter if the next class follows, else
one of the marks from `#` on. -/
def readRuns : (start kind high : Nat) → Chars → List (Nat × Nat)
  | _, _, _, [] => []
  | start, kind, high, c :: cs =>
    if c.isUpper then readRuns start kind (26 * (high + (c.toNat - 65))) cs
    else
      let (digit, step) := if c.isLower then (c.toNat - 97, 1) else (c.toNat - 35, 2)
      let run := (start + high + digit, (kind + step) % 3)
      run :: readRuns run.1 run.2 0 cs

def Runs.ofRows (rows : List String) : Runs := ((0, 0) :: readRuns 0 0 0 (rows.flatMap (·.toList))).toArray

/-- Halves the part of the table between `lo` and `hi`, as often as `steps` says. -/
def Runs.search (t : Runs) (n : Nat) : (steps lo hi : Nat) → Nat
  | 0, _, _ => 0
  | steps + 1, lo, hi =>
    if hi ≤ lo then (t[lo - 1]?.map (·.2)).getD 0
    else
      let mid := (lo + hi) / 2
      if t[mid]?.any (n < ·.1) then t.search n steps lo mid else t.search n steps (mid + 1) hi

def Runs.kindOf (t : Runs) (c : Char) : Nat := t.search c.toNat 24 0 t.size

/-- First letters and numbers, then characters without a shape: controls, formats, separators, private and unassigned code
points. -/
def letterRuns : Runs :=
  .ofRows ["E;Bhj$%be%b$d%b&b:bB(bR3e/o(h$b$Ez(bc%'bbec$bd$b$u$D(bF,iGk$Bm%$gB2%c&bC&+Bb''%r9bdB4v-e%bD8b$*bh%h2c$1%$bB'B$%D.lb1B4j%",
   "ebcd9e$j$d$(c2$<&c$$l(;bgjiB3;bBhC%d$s$h-e-b3&$i%c%w$h$b&ecb$*c%cdbi$'c$&%%/c)c$%c&$g'c%w$h$c$c$cc$b(e%c&d$*e$b*-c&%k&$j",
   "$d$w$h$c$fcb$+b&b&%b2%%%-%*$)b&$i%c%w$h$c$fcb$*c%c&h&'c$&%%-bhkbb$g&d$e&c$b$c&c&d&me(d&b'%bg$10+ffi$d$x$qcb$*b&b'h%$d%b%",
   "%%%khb*b$ei$d$x$k$fcb$*b&b'h%)c$%%%k$cnej$d$B2c$*b&be$$'&b-%%6bgb&$s&y$j$b%hd$e)b$b+)kc&/B9b%*eb*j-%B.c$b$f$y$b$-b%jb%f$",
   "bb)%k%eB)$Bf7mi$Bkex(.bB-b2b0B.B4u.g)e'd$d%h&e0m$b-gBm$b(b%B4bMv$e%h$b$e%Bp$e%Bh$e%h$b$e%p$Cf$e%Cpcmu&3-)Di%gcbX9cr$B#%&",
   "C:dl*5',6(,5%/n$db%/C#Bj$e$$%k)kg1bbk)Dl*(cB+bb(Cs-Bfb/e/e$dcBo%f.Bs'Ba)ldBi:(ccC$-bB&cbk)kgh$)cB(BxfB8ri&-B.bdB'nC'1ieB",
   "-7dfk&B:cj*Br%&+iz'b)b%db(H-CmKs%g%Bm%g%i$b$b$b$Bf%Cb$*b$dd$*de%gbd0&%d$*%r;iB84c%)f.($ndB*pB*pc$e$c-b$d(g$b$b$b'b.c'f(e",
   "$bC)%eZ0z.8C+Da9YgB'BM'cB)bEbI8g'dcfe$cBm$b(b%Ce*$$obx,h$h$h$h$h$h$h$hbDb$B7BiB#bD.mI)Ba/fe&z,h(c(&$Dice&bD/be(Br$Dqbc'k",
   "B)B-",
   "/3B($-Be+b2Bg-Bn2MiJT1CmBGUfdC&,B7cK,dBc7B8qB(cD%+ix,cD<cCm(c$b$f;3b&b'b:-&)')C#'icB;5ickgs)d$b%bB/k:0lbBddeB8B$$lec(bz$",
   "B21,&b+%%kce:d$dB;b$d%c(c$bb;&c.h&%-g%g%g,h$h$B4b1%'E..%k)QNs/x'BxeDA7JM'Oc%EcB/h/f($b-bn$f$b$c$c$E'43N<sCm%Cch$B)/B'gB<",
   "b6b''f$Ffep-hB#gB#lDl&g%g%g%dd*b*n%%m$Ba$t$c$p%oB+Etf&'BtdjC(r%&b0d$BvB7F#Bd&BxpbBb'Bk,Be(B/((BebbBk'+bfB3Gc%k)Bk'Bk'Bo+",
   "Calbl$p$h$c$l$p$h$cC2Lz,w-i;g$Bq$jC4g%b$Bs$c&b%xbbB(cBm+jB9t$c(BhdbBaf$C/Ce'u%B8&b%fee$d$Bdc&ebjh,*B(bBgB)+bB%%'(*,Ccdhw",
   "%Bb(Bah'/hD%CvC&Bz0Bz*B3'+kL+Bf$Bqb&%cD#Bo+9l'(95+B/Bc7xjdC$9'B'b%cbjeB60b(0z*kgdB-1$-e$cb+B,dbjdB9o'l.b$&$u.s$<6C0h$b$e",
   "$p$-$)B8/(kg'$i%c%w$h$c$fbc$*c%c&%bg$((%c*d(F,C$s'f-%bcdB'B9u%bb+kG-B8*cBg'%B+B9ub.kg06B4n$$)kC%Bbc2'/ehH&B53D9Df/i%b%i$",
   "c$;)b%ce$b$(,kC5i%B0*ch$b$$B$$kB1h$0+$lB7t$(0CvK&j$B.+bi$(-BddcBec9b1C8h$c$B/)d$b%bh$$+k)g$c$B)(b%bfb*kL;6)H$b28B&nbBJmD",
   ";Ehb(.HoDX-D6%0BPfFZ6WlMU$Vx*Bf$kecDb$k)Bec)-B9q'%-k$h$v(tBA/D,'D:Cxeb$C&henC/%b$$l%1JCa+BVqB3jNF4e$h$c$LfB6d4e+PgDK7Ed(",
   "n&j*kc'GYyB7c:jE/CiJ/kB0cC9iE+vC5F;umD,,zF(Dh$Ct$c%b%c%e$m$b$h$Cn$e%i$h$Bc$e$f$b&h$Nc%<b<bB(b<bB(b<bB(b<bB(b<bi%B;Z%p(b2",
   "BQ/BfIr*b4c*b%b(I(Btdhh%k'$$M+B'$4B5ekf$BW#h$e$c$p$Hp%,*B2C3hb'ke%BE(C*b&beC;B6bpH/e$Bb$c$b%b$k$e$b$b)b'b$b$b$d$c$b%b$b$",
   "b$b$b$c$b%e$h$e$e$b$k$r(d$f$rCa%KkB5eD9m2c2b2bB.-0G(CeB&nB5e,h%o)FyBL9f3d0dE/mD.h/e$p/eC'i-gB1iB'c%DaN%m1c(d(d*jB&d.f)k-",
   "g+i*jF4bC&B.kBN3CLFcB)GDt*Io%INq1LBlEP,UwCF;HHzBOTMrJ)"]

def isAlnum (c : Char) : Bool := if c.toNat < 128 then c.isAlphanum else letterRuns.kindOf c == 1

/-- Whether a character can be part of an identifier: a letter, a number or the underscore. -/
def isWordChar (c : Char) : Bool := c == '_' || isAlnum c

def isPrintable (c : Char) : Bool := if c.toNat < 128 then 32 ≤ c.toNat && c.toNat ≠ 127 else letterRuns.kindOf c != 2

end Sluice.Text

namespace Sluice

namespace Text

def quoteMark : Char := '\x27'

/-- The quoted form of a character: marks and controls by name, characters without a shape by number. -/
def quotedChar (mark c : Char) : Chars :=
  if c = mark ∨ c = '\\' then ['\\', c]
  else if c = '\n' then ['\\', 'n']
  else if c = '\r' then ['\\', 'r']
  else if c = '\t' then ['\\', 't']
  else if isPrintable c then [c]
  else
    let n := c.toNat
    if n < 0x100 then '\\' :: 'x' :: hexDigits 2 n
    else if n < 0x10000 then '\\' :: 'u' :: hexDigits 4 n
    else '\\' :: 'U' :: hexDigits 8 n

/-- A text in quotes: single ones, unless it holds single and no double ones. -/
def quoted (s : Chars) : Chars :=
  let mark := if s.contains quoteMark && !s.contains '"' then '"' else quoteMark
  mark :: s.flatMap (quotedChar mark) ++ [mark]

def S.quoted (s : String) : String := String.ofList (Text.quoted s.toList)

end Text

end Sluice

/-!
## Upper and lower case

An item `À-Ö>à` sends a run of neighbours to a run that starts at `à`; an item `Ā-Į/ā` does so for every second code
point. A few characters become several when raised.
-/

namespace Sluice.Text

structure CaseRun where
  first : Nat
  last : Nat
  stride : Nat
  image : Nat
  /-- the characters behind the image -/
  more : Chars := []

def CaseRun.ofItem : Chars → CaseRun
  | a :: '-' :: b :: arrow :: image :: more => ⟨a.toNat, b.toNat, if arrow = '>' then 1 else 2, image.toNat, more⟩
  | a :: image :: more => ⟨a.toNat, a.toNat, 1, image.toNat, more⟩
  | _ => ⟨0, 0, 1, 0, []⟩

def caseRuns (rows : List String) : Array CaseRun := (rows.flatMap fun row => (words row.toList).map CaseRun.ofItem).toArray

def caseImage (runs : Array CaseRun) (c : Char) : Chars :=
  let n := c.toNat
  match runs.find? fun r => r.first ≤ n && n ≤ r.last && (n - r.first) % r.stride == 0 with
  | some r => Char.ofNat (r.image + (n - r.first)) :: r.more
  | none => [c]

def lowerRows : List String :=
  ["À-Ö>à Ø-Þ>ø Ā-Į/ā Ĳ-Ķ/ĳ Ĺ-Ň/ĺ Ŋ-Ŷ/ŋ Ÿÿ Ź-Ž/ź Ɓɓ Ƃ-Ƅ/ƃ Ɔɔ Ƈƈ Ɖ-Ɗ>ɖ Ƌƌ Ǝǝ Əə Ɛɛ Ƒƒ Ɠɠ Ɣɣ Ɩɩ Ɨɨ Ƙƙ Ɯɯ Ɲɲ Ɵɵ Ơ-Ƥ/ơ Ʀʀ Ƨƨ",
   "Ʃʃ Ƭƭ Ʈʈ Ưư Ʊ-Ʋ>ʊ Ƴ-Ƶ/ƴ Ʒʒ Ƹƹ Ƽƽ Ǆǆ ǅǆ Ǉǉ ǈǉ Ǌǌ ǋ-Ǜ/ǌ Ǟ-Ǯ/ǟ Ǳǳ ǲ-Ǵ/ǳ Ƕƕ Ƿƿ Ǹ-Ȟ/ǹ Ƞƞ Ȣ-Ȳ/ȣ Ⱥⱥ Ȼȼ Ƚƚ Ⱦⱦ Ɂɂ Ƀƀ Ʉʉ Ʌʌ",
   "Ɇ-Ɏ/ɇ Ͱ-Ͳ/ͱ Ͷͷ Ϳϳ Άά Έ-Ί>έ Όό Ύ-Ώ>ύ Α-Ρ>α Σ-Ϋ>σ Ϗϗ Ϙ-Ϯ/ϙ ϴθ Ϸϸ Ϲϲ Ϻϻ Ͻ-Ͽ>ͻ Ѐ-Џ>ѐ А-Я>а Ѡ-Ҁ/ѡ Ҋ-Ҿ/ҋ Ӏӏ Ӂ-Ӎ/ӂ Ӑ-Ԯ/ӑ",
   "Ա-Ֆ>ա Ⴀ-Ⴥ>ⴀ Ⴧⴧ Ⴭⴭ Ꭰ-Ꮿ>ꭰ Ᏸ-Ᏽ>ᏸ Ა-Ჺ>ა Ჽ-Ჿ>ჽ Ḁ-Ẕ/ḁ ẞß Ạ-Ỿ/ạ Ἀ-Ἇ>ἀ Ἐ-Ἕ>ἐ Ἠ-Ἧ>ἠ Ἰ-Ἷ>ἰ Ὀ-Ὅ>ὀ Ὑ-Ὗ/ὑ Ὠ-Ὧ>ὠ ᾈ-ᾏ>ᾀ ᾘ-ᾟ>ᾐ ᾨ-ᾯ>ᾠ",
   "Ᾰ-Ᾱ>ᾰ Ὰ-Ά>ὰ ᾼᾳ Ὲ-Ή>ὲ ῌῃ Ῐ-Ῑ>ῐ Ὶ-Ί>ὶ Ῠ-Ῡ>ῠ Ὺ-Ύ>ὺ Ῥῥ Ὸ-Ό>ὸ Ὼ-Ώ>ὼ ῼῳ Ωω Kk Åå Ⅎⅎ Ⅰ-Ⅿ>ⅰ Ↄↄ Ⓐ-Ⓩ>ⓐ Ⰰ-Ⱟ>ⰰ Ⱡⱡ Ɫɫ Ᵽᵽ Ɽɽ Ⱨ-Ⱬ/ⱨ",
   "Ɑɑ Ɱɱ Ɐɐ Ɒɒ Ⱳⱳ Ⱶⱶ Ȿ-Ɀ>ȿ Ⲁ-Ⳣ/ⲁ Ⳬ-Ⳮ/ⳬ Ⳳⳳ Ꙁ-Ꙭ/ꙁ Ꚁ-Ꚛ/ꚁ Ꜣ-Ꜯ/ꜣ Ꜳ-Ꝯ/ꜳ Ꝺ-Ꝼ/ꝺ Ᵹᵹ Ꝿ-Ꞇ/ꝿ Ꞌꞌ Ɥɥ Ꞑ-Ꞓ/ꞑ Ꞗ-Ꞩ/ꞗ Ɦɦ Ɜɜ Ɡɡ Ɬɬ Ɪɪ Ʞʞ Ʇʇ",
   "Ʝʝ Ꭓꭓ Ꞵ-Ꟃ/ꞵ Ꞔꞔ Ʂʂ Ᶎᶎ Ꟈ-Ꟊ/ꟈ Ꟑꟑ Ꟗ-Ꟙ/ꟗ Ꟶꟶ Ａ-Ｚ>ａ 𐐀-𐐧>𐐨 𐒰-𐓓>𐓘 𐕰-𐖔/𐖗 𐕱-𐕹/𐖘 𐕽-𐖉/𐖤 𐖍-𐖑/𐖴 𐖕𐖼 𐲀-𐲲>𐳀 𑢠-𑢿>𑣀 𖹀-𖹟>𖹠 𞤀-𞤡>𞤢"]

/-- What is raised in another way than back from lower case. -/
def upperRows : List String :=
  ["µΜ ßSS ıI ŉʼN ſS ǅǄ ǈǇ ǋǊ ǰJ̌ ǲǱ ͅΙ ΐΪ́ ΰΫ́ ςΣ ϐΒ ϑΘ ϕΦ ϖΠ ϰΚ ϱΡ ϵΕ ևԵՒ ᲀВ ᲁД ᲂО ᲃ-ᲄ>С ᲅТ ᲆЪ ᲇѢ ᲈꙊ ẖH̱ ẗT̈ ẘW̊ ẙY̊",
   "ẚAʾ ẛṠ ὐΥ̓ ὒΥ̓̀ ὔΥ̓́ ὖΥ̓͂ ᾀ-ᾇ>ἈΙ ᾈ-ᾏ>ἈΙ ᾐ-ᾗ>ἨΙ ᾘ-ᾟ>ἨΙ ᾠ-ᾧ>ὨΙ ᾨ-ᾯ>ὨΙ ᾲᾺΙ ᾳΑΙ ᾴΆΙ ᾶΑ͂ ᾷΑ͂Ι ᾼΑΙ ιΙ ῂῊΙ ῃΗΙ ῄΉΙ ῆΗ͂ ῇΗ͂Ι",
   "ῌΗΙ ῒΪ̀ ΐΪ́ ῖΙ͂ ῗΪ͂ ῢΫ̀ ΰΫ́ ῤΡ̓ ῦΥ͂ ῧΫ͂ ῲῺΙ ῳΩΙ ῴΏΙ ῶΩ͂ ῷΩ͂Ι ῼΩΙ ﬀFF ﬁFI ﬂFL ﬃFFI ﬄFFL ﬅST ﬆST ﬓՄՆ ﬔՄԵ ﬕՄԻ ﬖՎՆ",
   "ﬗՄԽ"]

def lowerRuns : Array CaseRun := caseRuns lowerRows

def CaseRun.inverse (r : CaseRun) : CaseRun := ⟨r.image, r.image + (r.last - r.first), r.stride, r.first, []⟩

def upperRuns : Array CaseRun := caseRuns upperRows ++ lowerRuns.map CaseRun.inverse

def lowerChar (c : Char) : Chars :=
  if c.toNat < 128 then [c.toLower]
  else if c.toNat = 0x130 then ['i', Char.ofNat 0x307]
  else caseImage lowerRuns c

def upperChar (c : Char) : Chars := if c.toNat < 128 then [c.toUpper] else caseImage upperRuns c

def isCased (c : Char) : Bool := lowerChar c != [c] || upperChar c != [c]

/-- Lower case behind a character: a capital sigma that ends a word takes its final form. -/
def lowerFrom : (cased : Bool) → Chars → Chars
  | _, [] => []
  | before, c :: rest =>
    (if c.toNat = 0x3a3 then
      let final := before && !(rest.head?.any isCased)
      [Char.ofNat (if final then 0x3c2 else 0x3c3)]
    else lowerChar c) ++ lowerFrom (isCased c) rest

variable (s : Chars)

def lower : Chars := lowerFrom false s

def upper : Chars := s.flatMap upperChar

/-- A text in lower case but for its first character. -/
def capitalize : Chars → Chars
  | [] => []
  | c :: rest =>
    (match upperChar c with
      | [] => []
      | u :: us => u :: lower us) ++ lower rest

def isLowerText : Bool := s.any (fun c => upperChar c != [c]) && s.all (fun c => lowerChar c == [c])

namespace S

def lower (s : String) : String := String.ofList (Text.lower s.toList)

end S

end Sluice.Text
