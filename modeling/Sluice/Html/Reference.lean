import Sluice.Text.Letter
import Std.Data.HashMap

/-!
# Character references

References to characters by name or by number. A reference that means nothing stays as it is.
-/

namespace Sluice.Html

open Text String

/-! ## Named characters -/

/-- Parts of names, each behind its mark; a Greek or Cyrillic mark may stand for other marks. -/
def sharedParts : List Chars :=
  splitAtChar ' ' ("!ar #ight $row %riangle &eft *Equal +Vector -ot /cir :ac ;on <opf =scr >er ?sim ^Double _cy |box (in )ilde [su " ++
    "]es αGreat> βDown γplus δ:ute εcedil ζset ηapprox θSucceeds ιSqu!e κAr$ λtical μang νtri ξgrave οr#!$ πPreced] " ++
    "ρSlant* ςr!r σh!po; τEquilibrium υC;tourInteg φeqslant χdown ψdash ωstrok аempty бSp:e вtim] гL]s дprec " ++
    "еBr:ket жeqq зbreve иc!; йpsil; кNegative лurly мl!r нl&!$ оm(us пwedge рcup сTee тArr уmapsto фlement хCircle " ++
    "цcap чp!allel шfr: щhort ъSup> ыcorn ьmid эquo юbrk яDi:ri").toList

/-- The names of single characters, in their order. Behind `@` stands the number of the next one, a full stop passes one
over. Commas divide the names of one character; `~` marks those that can do without their semicolon. -/
def nameRows : List String :=
  ["@9 Tab NewL(e @21 excl QUOT~,qu-~ num doll! p>cnt AMP~,amp~ apos lp! rp! ast,ьast γ comma . p>iod sol @3a col; semi",
   "LT~,lt~ equals GT~,gt~ qu]t commat @5b lbr:k,lsqb bsol rbr:k,rsqb Hat Und>B!,lowb! яλGrave,ξ @7b lbr:e,lcub",
   "V>λL(e,v>b!,v>t rbr:e,rcub @a0 N;Break(gб,nbsp~ iexcl~ cent~ pound~ curren~ yen~ brvb!~ sect~ D-,^D-,die,uml~",
   "COPY~,copy~ ordf~ laэ~ n-~ shy~ REG~,/cledR,reg~ m:r~,strns deg~ PlusM(us,γmn~,pm [p2~ [p3~ яλAcute,δ~ micro~ p!a~",
   "Cent>D-,cent>d-,ьd-~ Cedilla,ε~ [p1~ ordm~ raэ~ ш14~ ш12~,half ш34~ iqu]t~ Aξ~ Aδ~ A/c~ At)~ Auml~ Ar(g~,μst AElig~ Cε~",
   "Eξ~ Eδ~ E/c~ Euml~ Iξ~ Iδ~ I/c~ Iuml~ ETH~ Nt)~ Oξ~ Oδ~ O/c~ Ot)~ Ouml~ в~ Oslash~ Uξ~ Uδ~ U/c~ Uuml~ Yδ~ THORN~ szlig~",
   "aξ~ aδ~ a/c~ at)~ auml~ !(g~ aelig~ cε~ eξ~ eδ~ e/c~ euml~ iξ~ iδ~ i/c~ iuml~ eth~ nt)~ oξ~ oδ~ o/c~ -)~ ouml~",
   "div,divide~ oslash~ uξ~ uδ~ u/c~ uuml~ yδ~ thorn~ yuml~ Am:r am:r Aз aз Aog; aog; Cδ cδ C/c c/c Cd- cd- Cи cи Dи dи Dω",
   "dω Em:r em:r . . Ed- ed- Eog; eog; Eи eи G/c g/c Gз gз Gd- gd- Gε . H/c h/c Hω hω It) it) Im:r im:r . . Iog; iog; Id-",
   "imath,(od- IJlig ijlig J/c j/c Kε kε kgreen Lδ lδ Lε lε Lи lи Lь- lь- Lω lω Nδ nδ Nε nε Nи nи napos ENG eng Om:r om:r .",
   ". Odbl: odbl: OElig oelig Rδ rδ Rε rε Rи rи Sδ sδ S/c s/c Sε sε Sи sи Tε tε Tи tи Tω tω Ut) ut) Um:r um:r Uз uз Ur(g",
   "ur(g Udbl: udbl: Uog; uog; W/c w/c Y/c y/c Yuml Zδ zδ Zd- zd- Zи zи @192 fnof @1b5 imped @1f5 gδ @237 jmath @2c6 /c",
   "H:ek,и @2d8 Breve,з яλD-,d- r(g og; яλT),t) яλ^Acute,dbl: @311 βBreve @391 Alpha Beta Gamma Delta Eй Zeta Eta Theta I-a",
   "Kappa Lambda Mu Nu Xi Omicr; Pi Rho . Sigma Tau Uй Phi Chi Psi Omega,ohm @3b1 alpha beta gamma delta epsi,eй zeta eta",
   "theta i-a kappa lambda mu nu xi omicr; pi rho sigmaf,sigmav,v!sigma sigma tau upsi,uй phi chi psi omega @3d1",
   "thetasym,thetav,v!theta Upsi,upsih . . phiv,stra#phi,v!phi piv,v!pi @3dc Gammad digamma,gammad @3f0 kappav,v!kappa",
   "rhov,v!rho @3f5 epsiv,stra#eй,v!eй b:keй,bepsi @401 IO_ DJ_ GJ_ Juk_ DS_ Iuk_ YI_ Js>_ LJ_ NJ_ TSH_ KJ_ . Ubr_ DZ_ A_ B_",
   "V_ G_ D_ IE_ ZH_ Z_ I_ J_ K_ L_ M_ N_ O_ P_ R_ S_ T_ U_ F_ KH_ TS_ CH_ SH_ SHCH_ HARD_ Y_ SOFT_ E_ YU_ YA_ :y b_ v_ g_",
   "d_ ie_ zh_ z_ i_ j_ k_ l_ m_ n_ o_ p_ r_ s_ t_ u_ f_ kh_ ts_ ch_ sh_ shch_ h!d_ y_ soft_ e_ yu_ y:y . io_ dj_ gj_ juk_",
   "ds_ iuk_ yi_ js>_ lj_ nj_ tsh_ kj_ . ubr_ dz_ @2002 ensp emsp emsp13 emsp14 . numsp puncsp Th(б,th(sp V>yTh(б,hairsp",
   "кMediumб,кThickб,кTh(б,кV>yTh(б,Z>oWidthб zwnj zwj lrm rlm ψ,hyphen . . nψ mψ horb! V>b!,V>t . OpenCлQu-e,lsэ",
   "CloseCлQu-e,rsэ,rsэr lsэr,sbэ . OpenCл^Qu-e,ldэ CloseCл^Qu-e,rdэ,rdэr bdэ,ldэr . dagg> Dagg>,ddagg> bull,bullet . . nldr",
   "hellip,mldr @2030 p>mil p>tenk prime Prime tprime b:kprime,bprime @2039 lsaэ rsaэ @203e Ov>B!,ol(e . . c!et . hybull",
   "frasl @204f bsemi @2057 qprime @205f Mediumб NoBreak ApplyFuncti;,af InvisibleTim],it InvisibleComma,ic @20ac euro @20db",
   "TripleD-,td- D-D- @2102 C<,complex] . . (c!e @210a g= Hilb>tб,H=,hamilt Hfr,Po(c!eplane H<,quat>ni;s planckh",
   "hb!,hslash,planck,plankv I=,imagl(e Ifr,Im,image,imagp!t Lapl:etrf,L=,lagran ell . N<,naturals num>o copysr wei>p,wp",
   "P<,prim] Q<,rati;als R=,real(e Re,Rfr,real,realp!t R<,reals rx @2122 TRADE,trade . Z<,(teg>s . . mho Zfr,zeetrf ii-a . .",
   "B>noullis,B=,b>nou Cayleys,Cfr . e= E=,expectati; Fouri>trf,F= . Mell(trf,M=,phmmat ord>,ord>of,o= alefsym,aleph beth",
   "gimel daleth @2145 CapitalDiff>entialD,DD Diff>entialD,dd Exp;entialE,ee,exp;entiale Imag(!yI,ii @2153 ш13 ш23 ш15 ш25",
   "ш35 ш45 ш16 ш56 ш18 ш38 ш58 ш78 @2190 L&κ,SщL&κ,м,н,sм SщUpκ,Upκ,u!r,up!$ R#κ,SщR#κ,ς,ο,sς βκ,Sщβκ,d!r,χ!$ L&R#κ,h!r,l&ο",
   "Upβκ,upχ!$,v!r Upp>L&κ,nw!r,nw!$ Upp>R#κ,ne!r,ne!$ Low>R#κ,se!r,se!$ Low>L&κ,sw!r,sw!$ nм,nн nς,nο . ςw,r#squig!$",
   "L!r,twoheadн U!r R!r,twoheadο D!r мtl,нtail ςtl,οtail L&сκ,уl& Upсκ,уup R#сκ,map,у βсκ,уχ . hookн,мhk hookο,ςhk",
   "мlp,loop!$l& loop!$r#,ςlp h!rw,l&r#squig!$ nh!r,nl&ο . Lsh,lsh Rsh,rsh ldsh rdsh . cς cuм,curve!$l& cuς,curve!$r# . .",
   "/cle!$l&,oм /cle!$r#,oς L&+,l&σup,lh!u βL&+,l&σχ,lh!d R#Up+,uh!r,upσr# L&Up+,uh!l,upσl& R#+,rh!u,r#σup βR#+,rh!d,r#σχ",
   "R#β+,dh!r,χσr# L&β+,dh!l,χσl& R#κL&κ,r#нs,rм Upκβκ,ud!r L&κR#κ,l&οs,lς l&нs,lм upup!$s,uu!r r#οs,rς dd!r,χχ!$s",
   "Rev>seτ,l&r#σs,lrh! τ,r#l&σs,rlh! nL&!$,nlт nL&ο,nhт nR#!$,nrт ^L&κ,L&!$,lт ^Upκ,Up!$,uт ^R#κ,Impli],R#!$,rт ^βκ,β!$,dт",
   "^L&R#κ,L&ο,hт,iff ^Upβκ,Upχ!$,vт nwт neт seт swт Lн,lA!r Rο,rA!r . zigς @21e4 L&κB!,мb R#κB!,ςb @21f5 βκUpκ,du!r @21fd",
   "lo!r ro!r ho!r ForAll,forall comp,compф P!tialD,p!t Exists,exist N-Exists,nexist,nexists а,аζ,аv,v!n-h(g . Del,nabla",
   "Eф,(,is(,is(v N-Eф,n-(,n-(va . Rev>seEф,SuchThat,ni,niv N-Rev>seEф,n-ni,n-niva . . Product,prod Coproduct,coprod Sum,[m",
   "о M(usPlus,mnγ,mp d-γ,γdo . B:kslash,ζо,ζmn,smallζо,sζmn lowast Smallх,compfn . Sqrt,radic . .",
   "Proporti;al,prop,propto,v!propto,vprop (f( μrt μ,μle μmsd,mea[redμle μsph V>λB!,ь,sщь,sь N-V>λB!,nь,nsщь,nsь",
   "^V>λB!,p!,ч,sщч,sp! N-^V>λB!,np!,nч,nsщч,nsp! and,п or,vee ц р Integral,(t Int ii(t,t(t υral,c;(t,o(t C;(t,^υral Cc;(t",
   "cw(t Clockwiseυral,cwc;(t Count>Clockwiseυral,awc;(t Th>efore,th>e4,th>efore Because,becaus,because ratio Col;,Proporti;",
   "d-о,оd . mDD- homtht T),?,thick?,thk? b:k?,b? :,mstpos :d V>λT),wr,wreath N-T),n? *T),eq?,e? T)*,?e,?eq N-T)*,n?e,n?eq",
   "T)Full*,c;g ?ne N-T)Full*,nc;g T)T),ap,η,asymp,thickη,thkap N-T)T),nap,nη ape,ηeq apid b:kc;g,bc;g CupCap,asympeq",
   "Bumpeq,HumpβHump,bump Hump*,bumpe,bumpeq D-*,d-eq,]d- d-eqd-,eD- efD-,fall(gd-seq >D-,ris(gd-seq Assign,col;e,col;eq",
   "ecol;,eqcol; e/,eq/c /ceq,/e . пq veeeq . t%q,νe . . equ]t,qu]teq N-*,ne C;gruent,equiv N-C;gruent,nequiv . le,leq",
   "α*,ge,geq гFull*,lE,lж αFull*,gE,gж lnE,lnж gnE,gnж Lt,N]tedгг,ll Gt,N]tedαα,gg between,twixt N-CupCap N-г,nl]s,nlt",
   "N-α,ngt,ngtr N-г*,nle,nleq N-α*,nge,ngeq гT),l]s?,l? αT),g?,gtr? N-гT),nl? N-αT),ng? гα,l]sgtr,lg αг,gl,gtrl]s N-гα,ntlg",
   "N-αг,ntgl π,pr,д θ,sc,[cc πρ,prcue,дcлeq θρ,sccue,[cccлeq πT),д?,pr? θT),sc?,[cc? N-π,npr,nд N-θ,nsc,n[cc [b,[bζ",
   "ъζ,[p,[pζ n[b n[p Subζ*,[be,[bζeq ъζ*,[pe,[pζeq N-Subζ*,n[be,n[bζeq N-ъζ*,n[pe,n[pζeq [bne,[bζneq [pne,[pζneq . рd-",
   "Uni;Plus,uγ ιSubζ,sq[b,sq[bζ ιъζ,sq[p,sq[pζ ιSubζ*,sq[be,sq[bζeq ιъζ*,sq[pe,sq[pζeq ιInt>secti;,sqц ιUni;,sqр хPlus,oγ",
   "хM(us,oо хTim],-im] osol хD-,od- /cled/c,o/ /cledast,oast . /cledψ,oψ |γ,γb |о,оb |в,вb d-squ!e,sd-b R#с,vψ L&с,ψv",
   "βс,top Upс,b-,b-tom,p>p . models ^R#с,vDash Vψ Vvψ VDash nvψ nvDash nVψ nVDash prurel . L&T%,v!t%l&,vlν R#T%,v!t%r#,vrν",
   "L&T%*,lνe,t%l&eq R#T%*,rνe,t%r#eq origof imof multimap,mumap h>c; (tcal,(t>cal veeb! . b!vee μrtvb lrν Wedge,bigп,xп",
   "Vee,bigvee,xvee Int>secti;,bigц,xц Uni;,bigр,xр Diam;d,diam,diam;d sd- St!,sst!f divide;в,div;x bowtie lв rв",
   "l&threeв,lthree r#threeв,rthree b:k?eq,b?e cлvee,cuvee cлп,cuwed Sub,Subζ Sup,Supζ Cap Cup fork,pitchfork ep! l]sd-,ltd-",
   "gtd-,gtrd- Ll Gg,ggg г*α,leg,l]seqgtr α*г,gel,gtreql]s . . cuepr,cлeqд cu]c,cлeq[cc N-πρ,nprcue N-θρ,nsccue",
   "N-ιSubζ*,nsq[be N-ιъζ*,nsq[pe . . ln? gn? дn?,prn? scn?,[ccn? N-L&T%,nlν,nt%l& N-R#T%,nrν,nt%r# N-L&T%*,nlνe,nt%l&eq",
   "N-R#T%*,nrνe,nt%r#eq vellip ctd- utd- dtd- dis( is(sv is(s is(d- n-(vc n-(vb . is(E nisd xnis nis n-nivc n-nivb @2305",
   "b!wed,b!п B!wed,doubleb!п . L&Ceil(g,lceil R#Ceil(g,rceil L&Floor,lfloor R#Floor,rfloor drcrop dlcrop urcrop ulcrop bn-",
   ". profl(e prof[rf . telrec t!get @231c ulы,ulы> urы,urы> dlы,llы> drы,lrы> . . f$n,sf$n smile,ssmile @232d _lcty profal!",
   "@2336 topb- @233d ovb! . solb! @237c μz!r @23b0 lmoust,lmoust:he rmoust,rmoust:he . . Ov>е,tю Und>е,bю bюtю @23dc",
   "Ov>P!enth]is Und>P!enth]is Ov>Br:e Und>Br:e . . trpezium @23e7 el(t>s @2423 blank @24c8 /cledS,oS @2500 Horiz;talL(e,|h",
   ". |v @250c |dr @2510 |dl @2514 |ur @2518 |ul @251c |vr @2524 |vl @252c |hd @2534 |hu @253c |vh @2550 |H |V |dR |Dr |DR",
   "|dL |Dl |DL |uR |Ur |UR |uL |Ul |UL |vR |Vr |VR |vL |Vl |VL |Hd |hD |HD |Hu |hU |HU |vH |Vh |VH @2580 uhblk @2584 lhblk",
   "@2588 block @2591 blk14 blk12 blk34 @25a1 ι,squ,squ!e @25aa FilledV>ySmallι,bl:ksqu!e,squ!f,squf EmptyV>ySmallι . rect",
   "m!k> . . fltns . bigt%up,xuν bl:kt%,uνf t%,uν . . bl:kt%r#,rνf rν,t%r# @25bd bigt%χ,xdν bl:kt%χ,dνf dν,t%χ . .",
   "bl:kt%l&,lνf lν,t%l& @25ca loz,lozenge / @25ec νd- . . big/c,x/c @25f8 ulν urν llν EmptySmallι FilledSmallι @2605",
   "bigst!,st!f st! @260e ph;e @2640 female . male @2660 spad],spade[it . . clubs,club[it . he!ts,he!t[it diam;d[it,diams",
   "@266a [ng . . flat natur,natural sh!p @2713 check,checkm!k @2717 cross @2720 malt,malt]e @2736 sext @2758 V>λSep!ator",
   "@2772 lbю rbю @27c8 bsolh[b [phsol @27e6 L&^е,loю R#^е,roю L&Angleе,lμ,lμle R#Angleе,rμ,rμle Lμ Rμ loμ roμ @27f5",
   "L;gL&κ,l;gн,xм L;gR#κ,l;gο,xς L;gL&R#κ,l;gl&ο,xh!r ^L;gL&κ,L;gн,xlт ^L;gR#κ,L;gο,xrт ^L;gL&R#κ,L;gl&ο,xhт . l;gу,xmap .",
   ". dzigς @2902 nvlт nvrт nvH!r Map @290c lb!r bk!ow,rb!r lB!r dbk!ow,rB!r RB!r,drbk!ow DD-rahd UpκB! βκB! . . R!rtl . .",
   "latail ratail lAtail rAtail мfs ςfs мbfs ςbfs . . nw!hk ne!hk hkse!ow,se!hk hksw!ow,sw!hk nwne! n]e!,toea s]w!,tosa",
   "swnw! @2933 ςc . cud!rr ldca rdca cud!rl мpl . . cuςm cuмp @2945 ςpl . . h!r/ U!ro/ lurdsh! ldrush! . . L&R#+ R#Upβ+",
   "βL&R#+ L&Upβ+ L&+B! R#+B! R#Up+B! R#β+B! βL&+B! βR#+B! L&Up+B! L&β+B! L&с+ R#с+ R#Upс+ R#βс+ βL&с+ βR#с+ L&Upс+ L&βс+",
   "lH! uH! rH! dH! luruh! ldrdh! ruluh! rdldh! lh!ul llh!d rh!ul lrh!d Upτ,udh! Rev>seUpτ,duh! RoundImpli] >!r ?ς м? ς? ςap",
   "ltм . gtς [bς . [pм lfisht rfisht ufisht dfisht @2985 lop! rop! @298b lюe rюe lюslu rюsld lюsld rюslu lμd rμd lp!lt",
   "rp!gt gtlP! ltrP! @299a vzigzag . vμrt μrtvbd @29a4 μe rμe dwμle uwμle μmsdaa μmsdab μmsd: μmsdad μmsdae μmsdaf μmsdag",
   "μmsdah bаv dаv cаv raаv laаv ohb! oь op! . op>p . olcross odsold . ol/ of/ olt ogt /s/ /E solb bsolb @29c9 || @29cd νsb",
   "rνlν L&T%B! R#T%B! @29dc i(f( (f(tie nv(f( @29e3 ep!sl smep!sl eqvp!sl @29eb bl:klozenge,lozf @29f4 RuleDelayed . dsol",
   "@2a00 bigod-,xod- bigoγ,xoγ big-im],x-ime . biguγ,xuγ . bigsqр,xsqр @2a0c iii(t,q(t fp!t(t . . /fn(t aw(t rppol(t",
   "scpol(t npol(t po(t(t quat(t (tl!hk @2a22 γ/ γa/ ?γ γdu γ? γtwo . mcomma оdu . . loγ roγ Cross вd вb! . smashp l-im]",
   "r-im] -im]as Oв odiv νγ νо νtime (tprod,iprod . . amalg цd- . nр nц цand рor рц цр рbrц цbrр рр цц cрs cцs . . cрssm . .",
   "And Or andand oror orslope andslope . andv orv andd ord . wedb! @2a66 sd-e @2a6a ?d- . . c;gd- east> apa/ apE eγ γe E?",
   "Col;e * . dd-seq,eDD- equivDD lt/ gt/ ltqu]t gtqu]t гρ,lφ,l] αρ,gφ,g] l]d- g]d- l]d-o g]d-o l]d-or g]d-ol lap,l]sη",
   "gap,gtrη lne,lneq gne,gneq lnap,lnη gnap,gnη lEg,l]sжgtr gEl,gtrжl]s l?e g?e l?g g?l lgE glE l]g] g]l] els,φl]s egs,φgtr",
   "elsd- egsd- el eg . . ?l ?g ?lE ?gE гг αα . glj gla ltcc gtcc l]cc g]cc smt lat smte late bumpE π*,pre,дeq θ*,sce,[cceq",
   ". . prE scE дnж,prnE scnE,[ccnж prap,дη sц,[ccη дnη,prnap scnap,[ccnη Pr Sc [bd- [pd- [bγ [pγ [bmult [pmult [bed- [ped-",
   "[bE,[bζж [pE,[pζж [b? [p? . . [bnE,[bζnж [pnE,[pζnж . . c[b c[p c[be c[pe [b[p [p[b [b[b [p[p [ph[b [pd[b forkv t<ork",
   "mlcp @2ae4 Dashv,^L&с . Vψl B!v vB! vB!v . Vb! N- bN- rnь /ь ь/ top/ nhp! p!? @2afd p!sl @fb00 fflig filig fllig ffilig",
   "ffllig @1d49c A= . C= D= . . G= . . J= K= . . N= O= P= Q= . S= T= U= V= W= X= Y= Z= a= b= c= d= . f= . h= i= j= k= l= m=",
   "n= . p= q= r= s= t= u= v= w= x= y= z= @1d504 Afr Bfr . Dfr Efr Ffr Gfr . . Jfr Kfr Lfr Mfr Nfr Ofr Pfr Qfr . Sfr Tfr Ufr",
   "Vfr Wfr Xfr Yfr . afr bfr cfr dfr efr ffr gfr hfr ifr jfr kfr lfr mfr nfr ofr pfr qfr rfr sfr tfr ufr vfr wfr xfr yfr",
   "zfr A< B< . D< E< F< G< . I< J< K< L< M< . O< @1d54a S< T< U< V< W< X< Y< . a< b< c< d< e< f< g< h< i< j< k< l< m< n< o<",
   "p< q< r< s< t< u< v< w< x< y< z<"]

/-- The names of two characters together, whose numbers have a plus sign between them. -/
def pairRows : List String :=
  ["nvlt=3c+20d2 bne=3d+20e5 nvgt=3e+20d2 fjlig=66+6a Thickб=205f+200a nςw=219d+338 np!t=2202+338 nμ=2220+20d2 цs=2229+fe00",
   "рs=222a+fe00 nv?=223c+20d2 r:e=223d+331 :E=223e+333 N-*T),ne?=2242+338 napid=224b+338 nvap=224d+20d2",
   "N-HumpβHump,nbump=224e+338 N-Hump*,nbumpe=224f+338 ned-=2250+338 bnequiv=2261+20e5 nvle=2264+20d2 nvge=2265+20d2",
   "nlE,nlж=2266+338 N-αFull*,ngE,ngж=2267+338 lv>tnж,lvnE=2268+fe00 gv>tnж,gvnE=2269+fe00 N-гг,nLtv=226a+338 nLt=226a+20d2",
   "N-αα,nGtv=226b+338 nGt=226b+20d2 N-θT)=227f+338 N-Subζ,n[bζ,vn[b=2282+20d2 N-ъζ,n[pζ,vn[p=2283+20d2",
   "v![bζneq,v[bne=228a+fe00 v![pζneq,v[pne=228b+fe00 N-ιSubζ=228f+338 N-ιъζ=2290+338 sqцs=2293+fe00 sqрs=2294+fe00",
   "nvlνe=22b4+20d2 nvrνe=22b5+20d2 nLl=22d8+338 nGg=22d9+338 l]g=22da+fe00 g]l=22db+fe00 n-(d-=22f5+338 n-(E=22f9+338",
   "nςc=2933+338 N-L&T%B!=29cf+338 N-R#T%B!=29d0+338 nc;gd-=2a6d+338 napE=2a70+338 N-гρ,nlφ,nl]=2a7d+338",
   "N-αρ,ngφ,ng]=2a7e+338 N-N]tedгг=2aa1+338 N-N]tedαα=2aa2+338 smt]=2aac+fe00 lat]=2aad+fe00 N-π*,npre,nдeq=2aaf+338",
   "N-θ*,nsce,n[cceq=2ab0+338 n[bE,n[bζж=2ac5+338 n[pE,n[pζж=2ac6+338 v![bζnж,v[bnE=2acb+fe00 v![pζnж,v[pnE=2acc+fe00",
   "np!sl=2afd+20e5"]

def spelledOut (c : Char) : Chars := ((sharedParts.find? (·.head? == some c)).map List.tail).getD [c]

def namesOf (chars : List Nat) (names : Chars) : Pairs :=
  let text := ofList (chars.map Char.ofNat)
  (splitAtChar ',' ((names.flatMap spelledOut).flatMap spelledOut)).flatMap fun name =>
    match cutOnce ['~'] name with
    | some (name, _) => [(ofList (name ++ [';']), text), (ofList name, text)]
    | none => [(ofList (name ++ [';']), text)]

def singleNames : (next : Nat) → List Chars → Pairs
  | _, [] => []
  | next, ['.'] :: rest => singleNames (next + 1) rest
  | _, ('@' :: digits) :: rest => singleNames (hexNumber digits) rest
  | next, names :: rest => namesOf [next] names ++ singleNames (next + 1) rest

def pairNames (item : Chars) : Pairs :=
  match splitAtChar '=' item with
  | [names, chars] => namesOf ((splitAtChar '+' chars).map hexNumber) names
  | _ => []

def namedChars : Std.HashMap String String :=
  let items (rows : List String) := rows.flatMap (splitAtChar ' ' ·.toList)
  .ofList (singleNames 0 (items nameRows) ++ (items pairRows).flatMap pairNames)

/-! ## Character references -/

def upperControls : List Nat :=
  [0x20ac, 0x81, 0x201a, 0x192, 0x201e, 0x2026, 0x2020, 0x2021, 0x2c6, 0x2030, 0x160, 0x2039, 0x152,
   0x8d, 0x17d, 0x8f, 0x90, 0x2018, 0x2019, 0x201c, 0x201d, 0x2022, 0x2013, 0x2014, 0x2dc, 0x2122,
   0x161, 0x203a, 0x153, 0x9d, 0x17e, 0x178]

def isNoncharacter (n : Nat) : Bool :=
  (1 ≤ n && n ≤ 8) || (0xe ≤ n && n ≤ 0x1f) || n == 0xb || n == 0x7f || (0xfdd0 ≤ n && n ≤ 0xfdef) ||
    n % 0x10000 == 0xfffe || n % 0x10000 == 0xffff

def ofNumber (n : Nat) : Chars :=
  if n = 0 then ['�']
  else if n = 0xd then ['\r']
  else if 0x80 ≤ n ∧ n < 0xa0 then [Char.ofNat (upperControls.getD (n - 0x80) 0)]
  else if (0xd800 ≤ n ∧ n ≤ 0xdfff) ∨ 0x10ffff < n then ['�']
  else if isNoncharacter n then []
  else [Char.ofNat n]

def takeSemicolon : Chars → Chars × Chars
  | ';' :: rest => ([';'], rest)
  | s => ([], s)

def number (isDigit : Char → Bool) (base : Nat) (value : Char → Nat) (s : Chars) : Option (Chars × Chars) :=
  let ds := s.takeWhile isDigit
  if ds.isEmpty then none
  else
    let n := ds.foldl (fun n c => min 0x110000 (n * base + value c)) 0
    some (ofNumber n, (takeSemicolon (s.drop ds.length)).2)

variable (s : Chars)

def longestName : (n : Nat) → Option Chars
  | 0 | 1 => none
  | n + 2 =>
    match namedChars[ofList (s.take (n + 2))]? with
    | some v => some (v.toList ++ s.drop (n + 2))
    | none => longestName (n + 1)

def ofName : Chars :=
  match namedChars[ofList s]? with
  | some v => v.toList
  | none => (longestName s (s.length - 1)).getD ('&' :: s)

def isReferenceChar (c : Char) : Bool := !oneOf "\t\n\x0c <&#;" c

def takeReference? : Option (Chars × Chars) :=
  match s with
  | '#' :: rest =>
    match number isAsciiDigit 10 (fun c => c.toNat - 48) rest with
    | some r => some r
    | none =>
      match rest with
      | x :: rest =>
        if x = 'x' ∨ x = 'X' then
          number (fun c => (hexValue? c).isSome) 16 (fun c => (hexValue? c).getD 0) rest
        else none
      | [] => none
  | _ =>
    let name := (s.take 32).takeWhile isReferenceChar
    if name.isEmpty then none
    else
      let (semi, rest) := takeSemicolon (s.drop name.length)
      some (ofName (name ++ semi), rest)

def unescapeFrom : (fuel : Nat) → Chars → Chars
  | 0, s => s
  | _, [] => []
  | fuel + 1, '&' :: rest =>
    match takeReference? rest with
    | some (text, after) => text ++ unescapeFrom fuel after
    | none => '&' :: unescapeFrom fuel rest
  | fuel + 1, c :: rest => c :: unescapeFrom fuel rest

def unescape : Chars := unescapeFrom (s.length + 1) s

/-- A text with the characters that have a meaning in pages written as references. -/
def escape (s : String) : String := S.referred [('"', "&quot;"), ('\x27', "&#x27;")] s

end Sluice.Html
