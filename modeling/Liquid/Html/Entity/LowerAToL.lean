/-!
# Entities from a to l

Named characters of HTML whose names start with one of the small letters from
A to L: each name, with its semicolon where that is part of it, and the code
points that it stands for. A name that may also be written without its
semicolon is listed both ways.

## Main definitions

* `lowerA`: The names that start with `a`.
* `lowerB`: The names that start with `b`.
* `lowerC`: The names that start with `c`.
* `lowerD`: The names that start with `d`.
* `lowerE`: The names that start with `e`.
* `lowerF`: The names that start with `f`.
* `lowerG`: The names that start with `g`.
* `lowerH`: The names that start with `h`.
* `lowerI`: The names that start with `i`.
* `lowerJ`: The names that start with `j`.
* `lowerK`: The names that start with `k`.
* `lowerL`: The names that start with `l`.
-/

namespace Liquid

namespace Html

namespace Entity

/-- The entities whose names start with a small A. -/
def lowerA : List (String × List Nat) :=
  [
    ("aacute", [225]), ("aacute;", [225]), ("abreve;", [259]), ("ac;", [8766]),
    ("acE;", [8766, 819]), ("acd;", [8767]), ("acirc", [226]), ("acirc;", [226]),
    ("acute", [180]), ("acute;", [180]), ("acy;", [1072]), ("aelig", [230]), ("aelig;", [230]),
    ("af;", [8289]), ("afr;", [120094]), ("agrave", [224]), ("agrave;", [224]),
    ("alefsym;", [8501]), ("aleph;", [8501]), ("alpha;", [945]), ("amacr;", [257]),
    ("amalg;", [10815]), ("amp", [38]), ("amp;", [38]), ("and;", [8743]), ("andand;", [10837]),
    ("andd;", [10844]), ("andslope;", [10840]), ("andv;", [10842]), ("ang;", [8736]),
    ("ange;", [10660]), ("angle;", [8736]), ("angmsd;", [8737]), ("angmsdaa;", [10664]),
    ("angmsdab;", [10665]), ("angmsdac;", [10666]), ("angmsdad;", [10667]),
    ("angmsdae;", [10668]), ("angmsdaf;", [10669]), ("angmsdag;", [10670]),
    ("angmsdah;", [10671]), ("angrt;", [8735]), ("angrtvb;", [8894]), ("angrtvbd;", [10653]),
    ("angsph;", [8738]), ("angst;", [197]), ("angzarr;", [9084]), ("aogon;", [261]),
    ("aopf;", [120146]), ("ap;", [8776]), ("apE;", [10864]), ("apacir;", [10863]),
    ("ape;", [8778]), ("apid;", [8779]), ("apos;", [39]), ("approx;", [8776]),
    ("approxeq;", [8778]), ("aring", [229]), ("aring;", [229]), ("ascr;", [119990]),
    ("ast;", [42]), ("asymp;", [8776]), ("asympeq;", [8781]), ("atilde", [227]),
    ("atilde;", [227]), ("auml", [228]), ("auml;", [228]), ("awconint;", [8755]),
    ("awint;", [10769])
  ]

/-- The entities whose names start with a small B. -/
def lowerB : List (String × List Nat) :=
  [
    ("bNot;", [10989]), ("backcong;", [8780]), ("backepsilon;", [1014]), ("backprime;", [8245]),
    ("backsim;", [8765]), ("backsimeq;", [8909]), ("barvee;", [8893]), ("barwed;", [8965]),
    ("barwedge;", [8965]), ("bbrk;", [9141]), ("bbrktbrk;", [9142]), ("bcong;", [8780]),
    ("bcy;", [1073]), ("bdquo;", [8222]), ("becaus;", [8757]), ("because;", [8757]),
    ("bemptyv;", [10672]), ("bepsi;", [1014]), ("bernou;", [8492]), ("beta;", [946]),
    ("beth;", [8502]), ("between;", [8812]), ("bfr;", [120095]), ("bigcap;", [8898]),
    ("bigcirc;", [9711]), ("bigcup;", [8899]), ("bigodot;", [10752]), ("bigoplus;", [10753]),
    ("bigotimes;", [10754]), ("bigsqcup;", [10758]), ("bigstar;", [9733]),
    ("bigtriangledown;", [9661]), ("bigtriangleup;", [9651]), ("biguplus;", [10756]),
    ("bigvee;", [8897]), ("bigwedge;", [8896]), ("bkarow;", [10509]), ("blacklozenge;", [10731]),
    ("blacksquare;", [9642]), ("blacktriangle;", [9652]), ("blacktriangledown;", [9662]),
    ("blacktriangleleft;", [9666]), ("blacktriangleright;", [9656]), ("blank;", [9251]),
    ("blk12;", [9618]), ("blk14;", [9617]), ("blk34;", [9619]), ("block;", [9608]),
    ("bne;", [61, 8421]), ("bnequiv;", [8801, 8421]), ("bnot;", [8976]), ("bopf;", [120147]),
    ("bot;", [8869]), ("bottom;", [8869]), ("bowtie;", [8904]), ("boxDL;", [9559]),
    ("boxDR;", [9556]), ("boxDl;", [9558]), ("boxDr;", [9555]), ("boxH;", [9552]),
    ("boxHD;", [9574]), ("boxHU;", [9577]), ("boxHd;", [9572]), ("boxHu;", [9575]),
    ("boxUL;", [9565]), ("boxUR;", [9562]), ("boxUl;", [9564]), ("boxUr;", [9561]),
    ("boxV;", [9553]), ("boxVH;", [9580]), ("boxVL;", [9571]), ("boxVR;", [9568]),
    ("boxVh;", [9579]), ("boxVl;", [9570]), ("boxVr;", [9567]), ("boxbox;", [10697]),
    ("boxdL;", [9557]), ("boxdR;", [9554]), ("boxdl;", [9488]), ("boxdr;", [9484]),
    ("boxh;", [9472]), ("boxhD;", [9573]), ("boxhU;", [9576]), ("boxhd;", [9516]),
    ("boxhu;", [9524]), ("boxminus;", [8863]), ("boxplus;", [8862]), ("boxtimes;", [8864]),
    ("boxuL;", [9563]), ("boxuR;", [9560]), ("boxul;", [9496]), ("boxur;", [9492]),
    ("boxv;", [9474]), ("boxvH;", [9578]), ("boxvL;", [9569]), ("boxvR;", [9566]),
    ("boxvh;", [9532]), ("boxvl;", [9508]), ("boxvr;", [9500]), ("bprime;", [8245]),
    ("breve;", [728]), ("brvbar", [166]), ("brvbar;", [166]), ("bscr;", [119991]),
    ("bsemi;", [8271]), ("bsim;", [8765]), ("bsime;", [8909]), ("bsol;", [92]),
    ("bsolb;", [10693]), ("bsolhsub;", [10184]), ("bull;", [8226]), ("bullet;", [8226]),
    ("bump;", [8782]), ("bumpE;", [10926]), ("bumpe;", [8783]), ("bumpeq;", [8783])
  ]

/-- The entities whose names start with a small C. -/
def lowerC : List (String × List Nat) :=
  [
    ("cacute;", [263]), ("cap;", [8745]), ("capand;", [10820]), ("capbrcup;", [10825]),
    ("capcap;", [10827]), ("capcup;", [10823]), ("capdot;", [10816]), ("caps;", [8745, 65024]),
    ("caret;", [8257]), ("caron;", [711]), ("ccaps;", [10829]), ("ccaron;", [269]),
    ("ccedil", [231]), ("ccedil;", [231]), ("ccirc;", [265]), ("ccups;", [10828]),
    ("ccupssm;", [10832]), ("cdot;", [267]), ("cedil", [184]), ("cedil;", [184]),
    ("cemptyv;", [10674]), ("cent", [162]), ("cent;", [162]), ("centerdot;", [183]),
    ("cfr;", [120096]), ("chcy;", [1095]), ("check;", [10003]), ("checkmark;", [10003]),
    ("chi;", [967]), ("cir;", [9675]), ("cirE;", [10691]), ("circ;", [710]), ("circeq;", [8791]),
    ("circlearrowleft;", [8634]), ("circlearrowright;", [8635]), ("circledR;", [174]),
    ("circledS;", [9416]), ("circledast;", [8859]), ("circledcirc;", [8858]),
    ("circleddash;", [8861]), ("cire;", [8791]), ("cirfnint;", [10768]), ("cirmid;", [10991]),
    ("cirscir;", [10690]), ("clubs;", [9827]), ("clubsuit;", [9827]), ("colon;", [58]),
    ("colone;", [8788]), ("coloneq;", [8788]), ("comma;", [44]), ("commat;", [64]),
    ("comp;", [8705]), ("compfn;", [8728]), ("complement;", [8705]), ("complexes;", [8450]),
    ("cong;", [8773]), ("congdot;", [10861]), ("conint;", [8750]), ("copf;", [120148]),
    ("coprod;", [8720]), ("copy", [169]), ("copy;", [169]), ("copysr;", [8471]),
    ("crarr;", [8629]), ("cross;", [10007]), ("cscr;", [119992]), ("csub;", [10959]),
    ("csube;", [10961]), ("csup;", [10960]), ("csupe;", [10962]), ("ctdot;", [8943]),
    ("cudarrl;", [10552]), ("cudarrr;", [10549]), ("cuepr;", [8926]), ("cuesc;", [8927]),
    ("cularr;", [8630]), ("cularrp;", [10557]), ("cup;", [8746]), ("cupbrcap;", [10824]),
    ("cupcap;", [10822]), ("cupcup;", [10826]), ("cupdot;", [8845]), ("cupor;", [10821]),
    ("cups;", [8746, 65024]), ("curarr;", [8631]), ("curarrm;", [10556]),
    ("curlyeqprec;", [8926]), ("curlyeqsucc;", [8927]), ("curlyvee;", [8910]),
    ("curlywedge;", [8911]), ("curren", [164]), ("curren;", [164]), ("curvearrowleft;", [8630]),
    ("curvearrowright;", [8631]), ("cuvee;", [8910]), ("cuwed;", [8911]), ("cwconint;", [8754]),
    ("cwint;", [8753]), ("cylcty;", [9005])
  ]

/-- The entities whose names start with a small D. -/
def lowerD : List (String × List Nat) :=
  [
    ("dArr;", [8659]), ("dHar;", [10597]), ("dagger;", [8224]), ("daleth;", [8504]),
    ("darr;", [8595]), ("dash;", [8208]), ("dashv;", [8867]), ("dbkarow;", [10511]),
    ("dblac;", [733]), ("dcaron;", [271]), ("dcy;", [1076]), ("dd;", [8518]),
    ("ddagger;", [8225]), ("ddarr;", [8650]), ("ddotseq;", [10871]), ("deg", [176]),
    ("deg;", [176]), ("delta;", [948]), ("demptyv;", [10673]), ("dfisht;", [10623]),
    ("dfr;", [120097]), ("dharl;", [8643]), ("dharr;", [8642]), ("diam;", [8900]),
    ("diamond;", [8900]), ("diamondsuit;", [9830]), ("diams;", [9830]), ("die;", [168]),
    ("digamma;", [989]), ("disin;", [8946]), ("div;", [247]), ("divide", [247]),
    ("divide;", [247]), ("divideontimes;", [8903]), ("divonx;", [8903]), ("djcy;", [1106]),
    ("dlcorn;", [8990]), ("dlcrop;", [8973]), ("dollar;", [36]), ("dopf;", [120149]),
    ("dot;", [729]), ("doteq;", [8784]), ("doteqdot;", [8785]), ("dotminus;", [8760]),
    ("dotplus;", [8724]), ("dotsquare;", [8865]), ("doublebarwedge;", [8966]),
    ("downarrow;", [8595]), ("downdownarrows;", [8650]), ("downharpoonleft;", [8643]),
    ("downharpoonright;", [8642]), ("drbkarow;", [10512]), ("drcorn;", [8991]),
    ("drcrop;", [8972]), ("dscr;", [119993]), ("dscy;", [1109]), ("dsol;", [10742]),
    ("dstrok;", [273]), ("dtdot;", [8945]), ("dtri;", [9663]), ("dtrif;", [9662]),
    ("duarr;", [8693]), ("duhar;", [10607]), ("dwangle;", [10662]), ("dzcy;", [1119]),
    ("dzigrarr;", [10239])
  ]

/-- The entities whose names start with a small E. -/
def lowerE : List (String × List Nat) :=
  [
    ("eDDot;", [10871]), ("eDot;", [8785]), ("eacute", [233]), ("eacute;", [233]),
    ("easter;", [10862]), ("ecaron;", [283]), ("ecir;", [8790]), ("ecirc", [234]),
    ("ecirc;", [234]), ("ecolon;", [8789]), ("ecy;", [1101]), ("edot;", [279]), ("ee;", [8519]),
    ("efDot;", [8786]), ("efr;", [120098]), ("eg;", [10906]), ("egrave", [232]),
    ("egrave;", [232]), ("egs;", [10902]), ("egsdot;", [10904]), ("el;", [10905]),
    ("elinters;", [9191]), ("ell;", [8467]), ("els;", [10901]), ("elsdot;", [10903]),
    ("emacr;", [275]), ("empty;", [8709]), ("emptyset;", [8709]), ("emptyv;", [8709]),
    ("emsp13;", [8196]), ("emsp14;", [8197]), ("emsp;", [8195]), ("eng;", [331]),
    ("ensp;", [8194]), ("eogon;", [281]), ("eopf;", [120150]), ("epar;", [8917]),
    ("eparsl;", [10723]), ("eplus;", [10865]), ("epsi;", [949]), ("epsilon;", [949]),
    ("epsiv;", [1013]), ("eqcirc;", [8790]), ("eqcolon;", [8789]), ("eqsim;", [8770]),
    ("eqslantgtr;", [10902]), ("eqslantless;", [10901]), ("equals;", [61]), ("equest;", [8799]),
    ("equiv;", [8801]), ("equivDD;", [10872]), ("eqvparsl;", [10725]), ("erDot;", [8787]),
    ("erarr;", [10609]), ("escr;", [8495]), ("esdot;", [8784]), ("esim;", [8770]),
    ("eta;", [951]), ("eth", [240]), ("eth;", [240]), ("euml", [235]), ("euml;", [235]),
    ("euro;", [8364]), ("excl;", [33]), ("exist;", [8707]), ("expectation;", [8496]),
    ("exponentiale;", [8519])
  ]

/-- The entities whose names start with a small F. -/
def lowerF : List (String × List Nat) :=
  [
    ("fallingdotseq;", [8786]), ("fcy;", [1092]), ("female;", [9792]), ("ffilig;", [64259]),
    ("fflig;", [64256]), ("ffllig;", [64260]), ("ffr;", [120099]), ("filig;", [64257]),
    ("fjlig;", [102, 106]), ("flat;", [9837]), ("fllig;", [64258]), ("fltns;", [9649]),
    ("fnof;", [402]), ("fopf;", [120151]), ("forall;", [8704]), ("fork;", [8916]),
    ("forkv;", [10969]), ("fpartint;", [10765]), ("frac12", [189]), ("frac12;", [189]),
    ("frac13;", [8531]), ("frac14", [188]), ("frac14;", [188]), ("frac15;", [8533]),
    ("frac16;", [8537]), ("frac18;", [8539]), ("frac23;", [8532]), ("frac25;", [8534]),
    ("frac34", [190]), ("frac34;", [190]), ("frac35;", [8535]), ("frac38;", [8540]),
    ("frac45;", [8536]), ("frac56;", [8538]), ("frac58;", [8541]), ("frac78;", [8542]),
    ("frasl;", [8260]), ("frown;", [8994]), ("fscr;", [119995])
  ]

/-- The entities whose names start with a small G. -/
def lowerG : List (String × List Nat) :=
  [
    ("gE;", [8807]), ("gEl;", [10892]), ("gacute;", [501]), ("gamma;", [947]), ("gammad;", [989]),
    ("gap;", [10886]), ("gbreve;", [287]), ("gcirc;", [285]), ("gcy;", [1075]), ("gdot;", [289]),
    ("ge;", [8805]), ("gel;", [8923]), ("geq;", [8805]), ("geqq;", [8807]),
    ("geqslant;", [10878]), ("ges;", [10878]), ("gescc;", [10921]), ("gesdot;", [10880]),
    ("gesdoto;", [10882]), ("gesdotol;", [10884]), ("gesl;", [8923, 65024]), ("gesles;", [10900]),
    ("gfr;", [120100]), ("gg;", [8811]), ("ggg;", [8921]), ("gimel;", [8503]), ("gjcy;", [1107]),
    ("gl;", [8823]), ("glE;", [10898]), ("gla;", [10917]), ("glj;", [10916]), ("gnE;", [8809]),
    ("gnap;", [10890]), ("gnapprox;", [10890]), ("gne;", [10888]), ("gneq;", [10888]),
    ("gneqq;", [8809]), ("gnsim;", [8935]), ("gopf;", [120152]), ("grave;", [96]),
    ("gscr;", [8458]), ("gsim;", [8819]), ("gsime;", [10894]), ("gsiml;", [10896]), ("gt", [62]),
    ("gt;", [62]), ("gtcc;", [10919]), ("gtcir;", [10874]), ("gtdot;", [8919]),
    ("gtlPar;", [10645]), ("gtquest;", [10876]), ("gtrapprox;", [10886]), ("gtrarr;", [10616]),
    ("gtrdot;", [8919]), ("gtreqless;", [8923]), ("gtreqqless;", [10892]), ("gtrless;", [8823]),
    ("gtrsim;", [8819]), ("gvertneqq;", [8809, 65024]), ("gvnE;", [8809, 65024])
  ]

/-- The entities whose names start with a small H. -/
def lowerH : List (String × List Nat) :=
  [
    ("hArr;", [8660]), ("hairsp;", [8202]), ("half;", [189]), ("hamilt;", [8459]),
    ("hardcy;", [1098]), ("harr;", [8596]), ("harrcir;", [10568]), ("harrw;", [8621]),
    ("hbar;", [8463]), ("hcirc;", [293]), ("hearts;", [9829]), ("heartsuit;", [9829]),
    ("hellip;", [8230]), ("hercon;", [8889]), ("hfr;", [120101]), ("hksearow;", [10533]),
    ("hkswarow;", [10534]), ("hoarr;", [8703]), ("homtht;", [8763]), ("hookleftarrow;", [8617]),
    ("hookrightarrow;", [8618]), ("hopf;", [120153]), ("horbar;", [8213]), ("hscr;", [119997]),
    ("hslash;", [8463]), ("hstrok;", [295]), ("hybull;", [8259]), ("hyphen;", [8208])
  ]

/-- The entities whose names start with a small I. -/
def lowerI : List (String × List Nat) :=
  [
    ("iacute", [237]), ("iacute;", [237]), ("ic;", [8291]), ("icirc", [238]), ("icirc;", [238]),
    ("icy;", [1080]), ("iecy;", [1077]), ("iexcl", [161]), ("iexcl;", [161]), ("iff;", [8660]),
    ("ifr;", [120102]), ("igrave", [236]), ("igrave;", [236]), ("ii;", [8520]),
    ("iiiint;", [10764]), ("iiint;", [8749]), ("iinfin;", [10716]), ("iiota;", [8489]),
    ("ijlig;", [307]), ("imacr;", [299]), ("image;", [8465]), ("imagline;", [8464]),
    ("imagpart;", [8465]), ("imath;", [305]), ("imof;", [8887]), ("imped;", [437]),
    ("in;", [8712]), ("incare;", [8453]), ("infin;", [8734]), ("infintie;", [10717]),
    ("inodot;", [305]), ("int;", [8747]), ("intcal;", [8890]), ("integers;", [8484]),
    ("intercal;", [8890]), ("intlarhk;", [10775]), ("intprod;", [10812]), ("iocy;", [1105]),
    ("iogon;", [303]), ("iopf;", [120154]), ("iota;", [953]), ("iprod;", [10812]),
    ("iquest", [191]), ("iquest;", [191]), ("iscr;", [119998]), ("isin;", [8712]),
    ("isinE;", [8953]), ("isindot;", [8949]), ("isins;", [8948]), ("isinsv;", [8947]),
    ("isinv;", [8712]), ("it;", [8290]), ("itilde;", [297]), ("iukcy;", [1110]), ("iuml", [239]),
    ("iuml;", [239])
  ]

/-- The entities whose names start with a small J. -/
def lowerJ : List (String × List Nat) :=
  [
    ("jcirc;", [309]), ("jcy;", [1081]), ("jfr;", [120103]), ("jmath;", [567]),
    ("jopf;", [120155]), ("jscr;", [119999]), ("jsercy;", [1112]), ("jukcy;", [1108])
  ]

/-- The entities whose names start with a small K. -/
def lowerK : List (String × List Nat) :=
  [
    ("kappa;", [954]), ("kappav;", [1008]), ("kcedil;", [311]), ("kcy;", [1082]),
    ("kfr;", [120104]), ("kgreen;", [312]), ("khcy;", [1093]), ("kjcy;", [1116]),
    ("kopf;", [120156]), ("kscr;", [120000])
  ]

/-- The entities whose names start with a small L. -/
def lowerL : List (String × List Nat) :=
  [
    ("lAarr;", [8666]), ("lArr;", [8656]), ("lAtail;", [10523]), ("lBarr;", [10510]),
    ("lE;", [8806]), ("lEg;", [10891]), ("lHar;", [10594]), ("lacute;", [314]),
    ("laemptyv;", [10676]), ("lagran;", [8466]), ("lambda;", [955]), ("lang;", [10216]),
    ("langd;", [10641]), ("langle;", [10216]), ("lap;", [10885]), ("laquo", [171]),
    ("laquo;", [171]), ("larr;", [8592]), ("larrb;", [8676]), ("larrbfs;", [10527]),
    ("larrfs;", [10525]), ("larrhk;", [8617]), ("larrlp;", [8619]), ("larrpl;", [10553]),
    ("larrsim;", [10611]), ("larrtl;", [8610]), ("lat;", [10923]), ("latail;", [10521]),
    ("late;", [10925]), ("lates;", [10925, 65024]), ("lbarr;", [10508]), ("lbbrk;", [10098]),
    ("lbrace;", [123]), ("lbrack;", [91]), ("lbrke;", [10635]), ("lbrksld;", [10639]),
    ("lbrkslu;", [10637]), ("lcaron;", [318]), ("lcedil;", [316]), ("lceil;", [8968]),
    ("lcub;", [123]), ("lcy;", [1083]), ("ldca;", [10550]), ("ldquo;", [8220]),
    ("ldquor;", [8222]), ("ldrdhar;", [10599]), ("ldrushar;", [10571]), ("ldsh;", [8626]),
    ("le;", [8804]), ("leftarrow;", [8592]), ("leftarrowtail;", [8610]),
    ("leftharpoondown;", [8637]), ("leftharpoonup;", [8636]), ("leftleftarrows;", [8647]),
    ("leftrightarrow;", [8596]), ("leftrightarrows;", [8646]), ("leftrightharpoons;", [8651]),
    ("leftrightsquigarrow;", [8621]), ("leftthreetimes;", [8907]), ("leg;", [8922]),
    ("leq;", [8804]), ("leqq;", [8806]), ("leqslant;", [10877]), ("les;", [10877]),
    ("lescc;", [10920]), ("lesdot;", [10879]), ("lesdoto;", [10881]), ("lesdotor;", [10883]),
    ("lesg;", [8922, 65024]), ("lesges;", [10899]), ("lessapprox;", [10885]),
    ("lessdot;", [8918]), ("lesseqgtr;", [8922]), ("lesseqqgtr;", [10891]), ("lessgtr;", [8822]),
    ("lesssim;", [8818]), ("lfisht;", [10620]), ("lfloor;", [8970]), ("lfr;", [120105]),
    ("lg;", [8822]), ("lgE;", [10897]), ("lhard;", [8637]), ("lharu;", [8636]),
    ("lharul;", [10602]), ("lhblk;", [9604]), ("ljcy;", [1113]), ("ll;", [8810]),
    ("llarr;", [8647]), ("llcorner;", [8990]), ("llhard;", [10603]), ("lltri;", [9722]),
    ("lmidot;", [320]), ("lmoust;", [9136]), ("lmoustache;", [9136]), ("lnE;", [8808]),
    ("lnap;", [10889]), ("lnapprox;", [10889]), ("lne;", [10887]), ("lneq;", [10887]),
    ("lneqq;", [8808]), ("lnsim;", [8934]), ("loang;", [10220]), ("loarr;", [8701]),
    ("lobrk;", [10214]), ("longleftarrow;", [10229]), ("longleftrightarrow;", [10231]),
    ("longmapsto;", [10236]), ("longrightarrow;", [10230]), ("looparrowleft;", [8619]),
    ("looparrowright;", [8620]), ("lopar;", [10629]), ("lopf;", [120157]), ("loplus;", [10797]),
    ("lotimes;", [10804]), ("lowast;", [8727]), ("lowbar;", [95]), ("loz;", [9674]),
    ("lozenge;", [9674]), ("lozf;", [10731]), ("lpar;", [40]), ("lparlt;", [10643]),
    ("lrarr;", [8646]), ("lrcorner;", [8991]), ("lrhar;", [8651]), ("lrhard;", [10605]),
    ("lrm;", [8206]), ("lrtri;", [8895]), ("lsaquo;", [8249]), ("lscr;", [120001]),
    ("lsh;", [8624]), ("lsim;", [8818]), ("lsime;", [10893]), ("lsimg;", [10895]),
    ("lsqb;", [91]), ("lsquo;", [8216]), ("lsquor;", [8218]), ("lstrok;", [322]), ("lt", [60]),
    ("lt;", [60]), ("ltcc;", [10918]), ("ltcir;", [10873]), ("ltdot;", [8918]),
    ("lthree;", [8907]), ("ltimes;", [8905]), ("ltlarr;", [10614]), ("ltquest;", [10875]),
    ("ltrPar;", [10646]), ("ltri;", [9667]), ("ltrie;", [8884]), ("ltrif;", [9666]),
    ("lurdshar;", [10570]), ("luruhar;", [10598]), ("lvertneqq;", [8808, 65024]),
    ("lvnE;", [8808, 65024])
  ]

end Entity

end Html

end Liquid
