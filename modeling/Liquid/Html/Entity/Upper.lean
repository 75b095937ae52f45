/-!
# Entities from A to Z

Named characters of HTML whose names start with a capital letter: each name,
with its semicolon where that is part of it, and the code points that it stands
for. A name that may also be written without its semicolon is listed both ways.

## Main definitions

* `upperA`: The names that start with `A`.
* `upperB`: The names that start with `B`.
* `upperC`: The names that start with `C`.
* `upperD`: The names that start with `D`.
* `upperE`: The names that start with `E`.
* `upperF`: The names that start with `F`.
* `upperG`: The names that start with `G`.
* `upperH`: The names that start with `H`.
* `upperI`: The names that start with `I`.
* `upperJ`: The names that start with `J`.
* `upperK`: The names that start with `K`.
* `upperL`: The names that start with `L`.
* `upperM`: The names that start with `M`.
* `upperN`: The names that start with `N`.
* `upperO`: The names that start with `O`.
* `upperP`: The names that start with `P`.
* `upperQ`: The names that start with `Q`.
* `upperR`: The names that start with `R`.
* `upperS`: The names that start with `S`.
* `upperT`: The names that start with `T`.
* `upperU`: The names that start with `U`.
* `upperV`: The names that start with `V`.
* `upperW`: The names that start with `W`.
* `upperX`: The names that start with `X`.
* `upperY`: The names that start with `Y`.
* `upperZ`: The names that start with `Z`.
-/

namespace Liquid

namespace Html

namespace Entity

/-- The entities whose names start with a capital A. -/
def upperA : List (String × List Nat) :=
  [
    ("AElig", [198]), ("AElig;", [198]), ("AMP", [38]), ("AMP;", [38]), ("Aacute", [193]),
    ("Aacute;", [193]), ("Abreve;", [258]), ("Acirc", [194]), ("Acirc;", [194]), ("Acy;", [1040]),
    ("Afr;", [120068]), ("Agrave", [192]), ("Agrave;", [192]), ("Alpha;", [913]),
    ("Amacr;", [256]), ("And;", [10835]), ("Aogon;", [260]), ("Aopf;", [120120]),
    ("ApplyFunction;", [8289]), ("Aring", [197]), ("Aring;", [197]), ("Ascr;", [119964]),
    ("Assign;", [8788]), ("Atilde", [195]), ("Atilde;", [195]), ("Auml", [196]), ("Auml;", [196])
  ]

/-- The entities whose names start with a capital B. -/
def upperB : List (String × List Nat) :=
  [
    ("Backslash;", [8726]), ("Barv;", [10983]), ("Barwed;", [8966]), ("Bcy;", [1041]),
    ("Because;", [8757]), ("Bernoullis;", [8492]), ("Beta;", [914]), ("Bfr;", [120069]),
    ("Bopf;", [120121]), ("Breve;", [728]), ("Bscr;", [8492]), ("Bumpeq;", [8782])
  ]

/-- The entities whose names start with a capital C. -/
def upperC : List (String × List Nat) :=
  [
    ("CHcy;", [1063]), ("COPY", [169]), ("COPY;", [169]), ("Cacute;", [262]), ("Cap;", [8914]),
    ("CapitalDifferentialD;", [8517]), ("Cayleys;", [8493]), ("Ccaron;", [268]),
    ("Ccedil", [199]), ("Ccedil;", [199]), ("Ccirc;", [264]), ("Cconint;", [8752]),
    ("Cdot;", [266]), ("Cedilla;", [184]), ("CenterDot;", [183]), ("Cfr;", [8493]),
    ("Chi;", [935]), ("CircleDot;", [8857]), ("CircleMinus;", [8854]), ("CirclePlus;", [8853]),
    ("CircleTimes;", [8855]), ("ClockwiseContourIntegral;", [8754]),
    ("CloseCurlyDoubleQuote;", [8221]), ("CloseCurlyQuote;", [8217]), ("Colon;", [8759]),
    ("Colone;", [10868]), ("Congruent;", [8801]), ("Conint;", [8751]),
    ("ContourIntegral;", [8750]), ("Copf;", [8450]), ("Coproduct;", [8720]),
    ("CounterClockwiseContourIntegral;", [8755]), ("Cross;", [10799]), ("Cscr;", [119966]),
    ("Cup;", [8915]), ("CupCap;", [8781])
  ]

/-- The entities whose names start with a capital D. -/
def upperD : List (String × List Nat) :=
  [
    ("DD;", [8517]), ("DDotrahd;", [10513]), ("DJcy;", [1026]), ("DScy;", [1029]),
    ("DZcy;", [1039]), ("Dagger;", [8225]), ("Darr;", [8609]), ("Dashv;", [10980]),
    ("Dcaron;", [270]), ("Dcy;", [1044]), ("Del;", [8711]), ("Delta;", [916]), ("Dfr;", [120071]),
    ("DiacriticalAcute;", [180]), ("DiacriticalDot;", [729]), ("DiacriticalDoubleAcute;", [733]),
    ("DiacriticalGrave;", [96]), ("DiacriticalTilde;", [732]), ("Diamond;", [8900]),
    ("DifferentialD;", [8518]), ("Dopf;", [120123]), ("Dot;", [168]), ("DotDot;", [8412]),
    ("DotEqual;", [8784]), ("DoubleContourIntegral;", [8751]), ("DoubleDot;", [168]),
    ("DoubleDownArrow;", [8659]), ("DoubleLeftArrow;", [8656]), ("DoubleLeftRightArrow;", [8660]),
    ("DoubleLeftTee;", [10980]), ("DoubleLongLeftArrow;", [10232]),
    ("DoubleLongLeftRightArrow;", [10234]), ("DoubleLongRightArrow;", [10233]),
    ("DoubleRightArrow;", [8658]), ("DoubleRightTee;", [8872]), ("DoubleUpArrow;", [8657]),
    ("DoubleUpDownArrow;", [8661]), ("DoubleVerticalBar;", [8741]), ("DownArrow;", [8595]),
    ("DownArrowBar;", [10515]), ("DownArrowUpArrow;", [8693]), ("DownBreve;", [785]),
    ("DownLeftRightVector;", [10576]), ("DownLeftTeeVector;", [10590]),
    ("DownLeftVector;", [8637]), ("DownLeftVectorBar;", [10582]),
    ("DownRightTeeVector;", [10591]), ("DownRightVector;", [8641]),
    ("DownRightVectorBar;", [10583]), ("DownTee;", [8868]), ("DownTeeArrow;", [8615]),
    ("Downarrow;", [8659]), ("Dscr;", [119967]), ("Dstrok;", [272])
  ]

/-- The entities whose names start with a capital E. -/
def upperE : List (String × List Nat) :=
  [
    ("ENG;", [330]), ("ETH", [208]), ("ETH;", [208]), ("Eacute", [201]), ("Eacute;", [201]),
    ("Ecaron;", [282]), ("Ecirc", [202]), ("Ecirc;", [202]), ("Ecy;", [1069]), ("Edot;", [278]),
    ("Efr;", [120072]), ("Egrave", [200]), ("Egrave;", [200]), ("Element;", [8712]),
    ("Emacr;", [274]), ("EmptySmallSquare;", [9723]), ("EmptyVerySmallSquare;", [9643]),
    ("Eogon;", [280]), ("Eopf;", [120124]), ("Epsilon;", [917]), ("Equal;", [10869]),
    ("EqualTilde;", [8770]), ("Equilibrium;", [8652]), ("Escr;", [8496]), ("Esim;", [10867]),
    ("Eta;", [919]), ("Euml", [203]), ("Euml;", [203]), ("Exists;", [8707]),
    ("ExponentialE;", [8519])
  ]

/-- The entities whose names start with a capital F. -/
def upperF : List (String × List Nat) :=
  [
    ("Fcy;", [1060]), ("Ffr;", [120073]), ("FilledSmallSquare;", [9724]),
    ("FilledVerySmallSquare;", [9642]), ("Fopf;", [120125]), ("ForAll;", [8704]),
    ("Fouriertrf;", [8497]), ("Fscr;", [8497])
  ]

/-- The entities whose names start with a capital G. -/
def upperG : List (String × List Nat) :=
  [
    ("GJcy;", [1027]), ("GT", [62]), ("GT;", [62]), ("Gamma;", [915]), ("Gammad;", [988]),
    ("Gbreve;", [286]), ("Gcedil;", [290]), ("Gcirc;", [284]), ("Gcy;", [1043]), ("Gdot;", [288]),
    ("Gfr;", [120074]), ("Gg;", [8921]), ("Gopf;", [120126]), ("GreaterEqual;", [8805]),
    ("GreaterEqualLess;", [8923]), ("GreaterFullEqual;", [8807]), ("GreaterGreater;", [10914]),
    ("GreaterLess;", [8823]), ("GreaterSlantEqual;", [10878]), ("GreaterTilde;", [8819]),
    ("Gscr;", [119970]), ("Gt;", [8811])
  ]

/-- The entities whose names start with a capital H. -/
def upperH : List (String × List Nat) :=
  [
    ("HARDcy;", [1066]), ("Hacek;", [711]), ("Hat;", [94]), ("Hcirc;", [292]), ("Hfr;", [8460]),
    ("HilbertSpace;", [8459]), ("Hopf;", [8461]), ("HorizontalLine;", [9472]), ("Hscr;", [8459]),
    ("Hstrok;", [294]), ("HumpDownHump;", [8782]), ("HumpEqual;", [8783])
  ]

/-- The entities whose names start with a capital I. -/
def upperI : List (String × List Nat) :=
  [
    ("IEcy;", [1045]), ("IJlig;", [306]), ("IOcy;", [1025]), ("Iacute", [205]),
    ("Iacute;", [205]), ("Icirc", [206]), ("Icirc;", [206]), ("Icy;", [1048]), ("Idot;", [304]),
    ("Ifr;", [8465]), ("Igrave", [204]), ("Igrave;", [204]), ("Im;", [8465]), ("Imacr;", [298]),
    ("ImaginaryI;", [8520]), ("Implies;", [8658]), ("Int;", [8748]), ("Integral;", [8747]),
    ("Intersection;", [8898]), ("InvisibleComma;", [8291]), ("InvisibleTimes;", [8290]),
    ("Iogon;", [302]), ("Iopf;", [120128]), ("Iota;", [921]), ("Iscr;", [8464]),
    ("Itilde;", [296]), ("Iukcy;", [1030]), ("Iuml", [207]), ("Iuml;", [207])
  ]

/-- The entities whose names start with a capital J. -/
def upperJ : List (String × List Nat) :=
  [
    ("Jcirc;", [308]), ("Jcy;", [1049]), ("Jfr;", [120077]), ("Jopf;", [120129]),
    ("Jscr;", [119973]), ("Jsercy;", [1032]), ("Jukcy;", [1028])
  ]

/-- The entities whose names start with a capital K. -/
def upperK : List (String × List Nat) :=
  [
    ("KHcy;", [1061]), ("KJcy;", [1036]), ("Kappa;", [922]), ("Kcedil;", [310]), ("Kcy;", [1050]),
    ("Kfr;", [120078]), ("Kopf;", [120130]), ("Kscr;", [119974])
  ]

/-- The entities whose names start with a capital L. -/
def upperL : List (String × List Nat) :=
  [
    ("LJcy;", [1033]), ("LT", [60]), ("LT;", [60]), ("Lacute;", [313]), ("Lambda;", [923]),
    ("Lang;", [10218]), ("Laplacetrf;", [8466]), ("Larr;", [8606]), ("Lcaron;", [317]),
    ("Lcedil;", [315]), ("Lcy;", [1051]), ("LeftAngleBracket;", [10216]), ("LeftArrow;", [8592]),
    ("LeftArrowBar;", [8676]), ("LeftArrowRightArrow;", [8646]), ("LeftCeiling;", [8968]),
    ("LeftDoubleBracket;", [10214]), ("LeftDownTeeVector;", [10593]), ("LeftDownVector;", [8643]),
    ("LeftDownVectorBar;", [10585]), ("LeftFloor;", [8970]), ("LeftRightArrow;", [8596]),
    ("LeftRightVector;", [10574]), ("LeftTee;", [8867]), ("LeftTeeArrow;", [8612]),
    ("LeftTeeVector;", [10586]), ("LeftTriangle;", [8882]), ("LeftTriangleBar;", [10703]),
    ("LeftTriangleEqual;", [8884]), ("LeftUpDownVector;", [10577]), ("LeftUpTeeVector;", [10592]),
    ("LeftUpVector;", [8639]), ("LeftUpVectorBar;", [10584]), ("LeftVector;", [8636]),
    ("LeftVectorBar;", [10578]), ("Leftarrow;", [8656]), ("Leftrightarrow;", [8660]),
    ("LessEqualGreater;", [8922]), ("LessFullEqual;", [8806]), ("LessGreater;", [8822]),
    ("LessLess;", [10913]), ("LessSlantEqual;", [10877]), ("LessTilde;", [8818]),
    ("Lfr;", [120079]), ("Ll;", [8920]), ("Lleftarrow;", [8666]), ("Lmidot;", [319]),
    ("LongLeftArrow;", [10229]), ("LongLeftRightArrow;", [10231]), ("LongRightArrow;", [10230]),
    ("Longleftarrow;", [10232]), ("Longleftrightarrow;", [10234]), ("Longrightarrow;", [10233]),
    ("Lopf;", [120131]), ("LowerLeftArrow;", [8601]), ("LowerRightArrow;", [8600]),
    ("Lscr;", [8466]), ("Lsh;", [8624]), ("Lstrok;", [321]), ("Lt;", [8810])
  ]

/-- The entities whose names start with a capital M. -/
def upperM : List (String × List Nat) :=
  [
    ("Map;", [10501]), ("Mcy;", [1052]), ("MediumSpace;", [8287]), ("Mellintrf;", [8499]),
    ("Mfr;", [120080]), ("MinusPlus;", [8723]), ("Mopf;", [120132]), ("Mscr;", [8499]),
    ("Mu;", [924])
  ]

/-- The entities whose names start with a capital N. -/
def upperN : List (String × List Nat) :=
  [
    ("NJcy;", [1034]), ("Nacute;", [323]), ("Ncaron;", [327]), ("Ncedil;", [325]),
    ("Ncy;", [1053]), ("NegativeMediumSpace;", [8203]), ("NegativeThickSpace;", [8203]),
    ("NegativeThinSpace;", [8203]), ("NegativeVeryThinSpace;", [8203]),
    ("NestedGreaterGreater;", [8811]), ("NestedLessLess;", [8810]), ("NewLine;", [10]),
    ("Nfr;", [120081]), ("NoBreak;", [8288]), ("NonBreakingSpace;", [160]), ("Nopf;", [8469]),
    ("Not;", [10988]), ("NotCongruent;", [8802]), ("NotCupCap;", [8813]),
    ("NotDoubleVerticalBar;", [8742]), ("NotElement;", [8713]), ("NotEqual;", [8800]),
    ("NotEqualTilde;", [8770, 824]), ("NotExists;", [8708]), ("NotGreater;", [8815]),
    ("NotGreaterEqual;", [8817]), ("NotGreaterFullEqual;", [8807, 824]),
    ("NotGreaterGreater;", [8811, 824]), ("NotGreaterLess;", [8825]),
    ("NotGreaterSlantEqual;", [10878, 824]), ("NotGreaterTilde;", [8821]),
    ("NotHumpDownHump;", [8782, 824]), ("NotHumpEqual;", [8783, 824]),
    ("NotLeftTriangle;", [8938]), ("NotLeftTriangleBar;", [10703, 824]),
    ("NotLeftTriangleEqual;", [8940]), ("NotLess;", [8814]), ("NotLessEqual;", [8816]),
    ("NotLessGreater;", [8824]), ("NotLessLess;", [8810, 824]),
    ("NotLessSlantEqual;", [10877, 824]), ("NotLessTilde;", [8820]),
    ("NotNestedGreaterGreater;", [10914, 824]), ("NotNestedLessLess;", [10913, 824]),
    ("NotPrecedes;", [8832]), ("NotPrecedesEqual;", [10927, 824]),
    ("NotPrecedesSlantEqual;", [8928]), ("NotReverseElement;", [8716]),
    ("NotRightTriangle;", [8939]), ("NotRightTriangleBar;", [10704, 824]),
    ("NotRightTriangleEqual;", [8941]), ("NotSquareSubset;", [8847, 824]),
    ("NotSquareSubsetEqual;", [8930]), ("NotSquareSuperset;", [8848, 824]),
    ("NotSquareSupersetEqual;", [8931]), ("NotSubset;", [8834, 8402]),
    ("NotSubsetEqual;", [8840]), ("NotSucceeds;", [8833]), ("NotSucceedsEqual;", [10928, 824]),
    ("NotSucceedsSlantEqual;", [8929]), ("NotSucceedsTilde;", [8831, 824]),
    ("NotSuperset;", [8835, 8402]), ("NotSupersetEqual;", [8841]), ("NotTilde;", [8769]),
    ("NotTildeEqual;", [8772]), ("NotTildeFullEqual;", [8775]), ("NotTildeTilde;", [8777]),
    ("NotVerticalBar;", [8740]), ("Nscr;", [119977]), ("Ntilde", [209]), ("Ntilde;", [209]),
    ("Nu;", [925])
  ]

/-- The entities whose names start with a capital O. -/
def upperO : List (String × List Nat) :=
  [
    ("OElig;", [338]), ("Oacute", [211]), ("Oacute;", [211]), ("Ocirc", [212]), ("Ocirc;", [212]),
    ("Ocy;", [1054]), ("Odblac;", [336]), ("Ofr;", [120082]), ("Ograve", [210]),
    ("Ograve;", [210]), ("Omacr;", [332]), ("Omega;", [937]), ("Omicron;", [927]),
    ("Oopf;", [120134]), ("OpenCurlyDoubleQuote;", [8220]), ("OpenCurlyQuote;", [8216]),
    ("Or;", [10836]), ("Oscr;", [119978]), ("Oslash", [216]), ("Oslash;", [216]),
    ("Otilde", [213]), ("Otilde;", [213]), ("Otimes;", [10807]), ("Ouml", [214]),
    ("Ouml;", [214]), ("OverBar;", [8254]), ("OverBrace;", [9182]), ("OverBracket;", [9140]),
    ("OverParenthesis;", [9180])
  ]

/-- The entities whose names start with a capital P. -/
def upperP : List (String × List Nat) :=
  [
    ("PartialD;", [8706]), ("Pcy;", [1055]), ("Pfr;", [120083]), ("Phi;", [934]), ("Pi;", [928]),
    ("PlusMinus;", [177]), ("Poincareplane;", [8460]), ("Popf;", [8473]), ("Pr;", [10939]),
    ("Precedes;", [8826]), ("PrecedesEqual;", [10927]), ("PrecedesSlantEqual;", [8828]),
    ("PrecedesTilde;", [8830]), ("Prime;", [8243]), ("Product;", [8719]), ("Proportion;", [8759]),
    ("Proportional;", [8733]), ("Pscr;", [119979]), ("Psi;", [936])
  ]

/-- The entities whose names start with a capital Q. -/
def upperQ : List (String × List Nat) :=
  [
    ("QUOT", [34]), ("QUOT;", [34]), ("Qfr;", [120084]), ("Qopf;", [8474]), ("Qscr;", [119980])
  ]

/-- The entities whose names start with a capital R. -/
def upperR : List (String × List Nat) :=
  [
    ("RBarr;", [10512]), ("REG", [174]), ("REG;", [174]), ("Racute;", [340]), ("Rang;", [10219]),
    ("Rarr;", [8608]), ("Rarrtl;", [10518]), ("Rcaron;", [344]), ("Rcedil;", [342]),
    ("Rcy;", [1056]), ("Re;", [8476]), ("ReverseElement;", [8715]),
    ("ReverseEquilibrium;", [8651]), ("ReverseUpEquilibrium;", [10607]), ("Rfr;", [8476]),
    ("Rho;", [929]), ("RightAngleBracket;", [10217]), ("RightArrow;", [8594]),
    ("RightArrowBar;", [8677]), ("RightArrowLeftArrow;", [8644]), ("RightCeiling;", [8969]),
    ("RightDoubleBracket;", [10215]), ("RightDownTeeVector;", [10589]),
    ("RightDownVector;", [8642]), ("RightDownVectorBar;", [10581]), ("RightFloor;", [8971]),
    ("RightTee;", [8866]), ("RightTeeArrow;", [8614]), ("RightTeeVector;", [10587]),
    ("RightTriangle;", [8883]), ("RightTriangleBar;", [10704]), ("RightTriangleEqual;", [8885]),
    ("RightUpDownVector;", [10575]), ("RightUpTeeVector;", [10588]), ("RightUpVector;", [8638]),
    ("RightUpVectorBar;", [10580]), ("RightVector;", [8640]), ("RightVectorBar;", [10579]),
    ("Rightarrow;", [8658]), ("Ropf;", [8477]), ("RoundImplies;", [10608]),
    ("Rrightarrow;", [8667]), ("Rscr;", [8475]), ("Rsh;", [8625]), ("RuleDelayed;", [10740])
  ]

/-- The entities whose names start with a capital S. -/
def upperS : List (String × List Nat) :=
  [
    ("SHCHcy;", [1065]), ("SHcy;", [1064]), ("SOFTcy;", [1068]), ("Sacute;", [346]),
    ("Sc;", [10940]), ("Scaron;", [352]), ("Scedil;", [350]), ("Scirc;", [348]), ("Scy;", [1057]),
    ("Sfr;", [120086]), ("ShortDownArrow;", [8595]), ("ShortLeftArrow;", [8592]),
    ("ShortRightArrow;", [8594]), ("ShortUpArrow;", [8593]), ("Sigma;", [931]),
    ("SmallCircle;", [8728]), ("Sopf;", [120138]), ("Sqrt;", [8730]), ("Square;", [9633]),
    ("SquareIntersection;", [8851]), ("SquareSubset;", [8847]), ("SquareSubsetEqual;", [8849]),
    ("SquareSuperset;", [8848]), ("SquareSupersetEqual;", [8850]), ("SquareUnion;", [8852]),
    ("Sscr;", [119982]), ("Star;", [8902]), ("Sub;", [8912]), ("Subset;", [8912]),
    ("SubsetEqual;", [8838]), ("Succeeds;", [8827]), ("SucceedsEqual;", [10928]),
    ("SucceedsSlantEqual;", [8829]), ("SucceedsTilde;", [8831]), ("SuchThat;", [8715]),
    ("Sum;", [8721]), ("Sup;", [8913]), ("Superset;", [8835]), ("SupersetEqual;", [8839]),
    ("Supset;", [8913])
  ]

/-- The entities whose names start with a capital T. -/
def upperT : List (String × List Nat) :=
  [
    ("THORN", [222]), ("THORN;", [222]), ("TRADE;", [8482]), ("TSHcy;", [1035]),
    ("TScy;", [1062]), ("Tab;", [9]), ("Tau;", [932]), ("Tcaron;", [356]), ("Tcedil;", [354]),
    ("Tcy;", [1058]), ("Tfr;", [120087]), ("Therefore;", [8756]), ("Theta;", [920]),
    ("ThickSpace;", [8287, 8202]), ("ThinSpace;", [8201]), ("Tilde;", [8764]),
    ("TildeEqual;", [8771]), ("TildeFullEqual;", [8773]), ("TildeTilde;", [8776]),
    ("Topf;", [120139]), ("TripleDot;", [8411]), ("Tscr;", [119983]), ("Tstrok;", [358])
  ]

/-- The entities whose names start with a capital U. -/
def upperU : List (String × List Nat) :=
  [
    ("Uacute", [218]), ("Uacute;", [218]), ("Uarr;", [8607]), ("Uarrocir;", [10569]),
    ("Ubrcy;", [1038]), ("Ubreve;", [364]), ("Ucirc", [219]), ("Ucirc;", [219]), ("Ucy;", [1059]),
    ("Udblac;", [368]), ("Ufr;", [120088]), ("Ugrave", [217]), ("Ugrave;", [217]),
    ("Umacr;", [362]), ("UnderBar;", [95]), ("UnderBrace;", [9183]), ("UnderBracket;", [9141]),
    ("UnderParenthesis;", [9181]), ("Union;", [8899]), ("UnionPlus;", [8846]), ("Uogon;", [370]),
    ("Uopf;", [120140]), ("UpArrow;", [8593]), ("UpArrowBar;", [10514]),
    ("UpArrowDownArrow;", [8645]), ("UpDownArrow;", [8597]), ("UpEquilibrium;", [10606]),
    ("UpTee;", [8869]), ("UpTeeArrow;", [8613]), ("Uparrow;", [8657]), ("Updownarrow;", [8661]),
    ("UpperLeftArrow;", [8598]), ("UpperRightArrow;", [8599]), ("Upsi;", [978]),
    ("Upsilon;", [933]), ("Uring;", [366]), ("Uscr;", [119984]), ("Utilde;", [360]),
    ("Uuml", [220]), ("Uuml;", [220])
  ]

/-- The entities whose names start with a capital V. -/
def upperV : List (String × List Nat) :=
  [
    ("VDash;", [8875]), ("Vbar;", [10987]), ("Vcy;", [1042]), ("Vdash;", [8873]),
    ("Vdashl;", [10982]), ("Vee;", [8897]), ("Verbar;", [8214]), ("Vert;", [8214]),
    ("VerticalBar;", [8739]), ("VerticalLine;", [124]), ("VerticalSeparator;", [10072]),
    ("VerticalTilde;", [8768]), ("VeryThinSpace;", [8202]), ("Vfr;", [120089]),
    ("Vopf;", [120141]), ("Vscr;", [119985]), ("Vvdash;", [8874])
  ]

/-- The entities whose names start with a capital W. -/
def upperW : List (String × List Nat) :=
  [
    ("Wcirc;", [372]), ("Wedge;", [8896]), ("Wfr;", [120090]), ("Wopf;", [120142]),
    ("Wscr;", [119986])
  ]

/-- The entities whose names start with a capital X. -/
def upperX : List (String × List Nat) :=
  [
    ("Xfr;", [120091]), ("Xi;", [926]), ("Xopf;", [120143]), ("Xscr;", [119987])
  ]

/-- The entities whose names start with a capital Y. -/
def upperY : List (String × List Nat) :=
  [
    ("YAcy;", [1071]), ("YIcy;", [1031]), ("YUcy;", [1070]), ("Yacute", [221]),
    ("Yacute;", [221]), ("Ycirc;", [374]), ("Ycy;", [1067]), ("Yfr;", [120092]),
    ("Yopf;", [120144]), ("Yscr;", [119988]), ("Yuml;", [376])
  ]

/-- The entities whose names start with a capital Z. -/
def upperZ : List (String × List Nat) :=
  [
    ("ZHcy;", [1046]), ("Zacute;", [377]), ("Zcaron;", [381]), ("Zcy;", [1047]), ("Zdot;", [379]),
    ("ZeroWidthSpace;", [8203]), ("Zeta;", [918]), ("Zfr;", [8488]), ("Zopf;", [8484]),
    ("Zscr;", [119989])
  ]

end Entity

end Html

end Liquid
