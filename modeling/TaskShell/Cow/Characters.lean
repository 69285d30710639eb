/-!
# Characters of the package

The drawings that the installed package knows by name.
-/

namespace TaskShell.Cow

/-- A body that is drawn below two heads. -/
def beavisBody : String := r"          /               \\
         /                :
        |                  '
        |                  |
        |                  |
         |   _--           |
         _| =-.     .-.   ||
         o|/o/       _.   |
         /  ~          \\ |
       (____\@)  ___~    |
          |_===~~~.`    |
       _______.--~     |
       \\________       |
                \\      |
              __/-___-- -__
             /            _ \\"

def dragonBody : String := "           //_^_/     \\\\/_ //     |    \\\\    \\\\
        ( //) |        \\\\///      |     \\\\     \\\\
      ( / /) _|_ /   )  //       |      \\\\     _\\\\
    ( // /) '/,_ _ _/  ( ; -.    |    _ _\\\\.-~        .-~~~^-.
  (( / / )) ,-\x7b        _      `-.|.-~-.           .~         `.
 (( // / ))  '/\\\\      /                 ~-. _ .-~      .-~^-.  \\\\
 (( /// ))      `.   \x7b            \x7d                   /      \\\\  \\\\
  (( / ))     .----~-.\\\\        \\\\-'                 .~         \\\\  `. \\\\^-.
             ///.----..>        \\\\             _ -~             `.  ^-`  ^-_
               ///-._ _ _ _ _ _ _\x7d^ - - - - ~                     ~-- ,.-~
                                                                  /.-~"

def turkeyBody : String := "              _+^^*+_    (     ,+*^ ^          \\\\+_        )
             \x7b       )  (    ,(    ,_+--+--,      ^)      ^\\\\
            \x7b (\\@)    \x7d f   ,(  ,+-^ __*_*_  ^^\\\\_   ^\\\\       )
           \x7b:;-/    (_+*-+^^^^^+*+*<_ _++_)_    )    )      /
          ( /  (    (        ,___    ^*+_+* )   <    <      \\\\
           U _/     )    *--<  ) ^\\\\-----++__)   )    )       )
            (      )  _(^)^^))  )  )\\\\^^^^^))^*+/    /       /
          (      /  (_))_^)) )  )  ))^^^^^))^^^)__/     +^^
         (     ,/    (^))^))  )  ) ))^^^^^^^))^^)       _)
          *+__+*       (_))^)  ) ) ))^^^^^^))^^^^^)____*^
          \\\\             \\\\_)^)_)) ))^^^^^^^^^^))^^^^)
           (_             ^\\\\__^^^^^^^^^^^^))^^^^^^^)
             ^\\\\___            ^\\\\__^^^^^^))^^^^^^^^)\\\\\\\\
                  ^^^^^\\\\uuu/^^\\\\uuu/^^^^\\\\^\\\\^\\\\^\\\\^\\\\^\\\\^\\\\^\\\\
                     ___) >____) >___   ^\\\\_\\\\_\\\\_\\\\_\\\\_\\\\_\\\\)
                    ^^^//\\\\\\\\_^^//\\\\\\\\_^       ^(\\\\_\\\\_\\\\_\\\\)"

def characters : List (String × String) := [
  ("beavis", r"
     \
      \
       \
             _------~~-,
          ,'            ,
" ++ beavisBody ++ r"
"),
  ("cheese", r"
\
 \
  \
   \
     /     \_/         |
    |                 ||
    |                 ||
   |    ###\  /###   | |
   |     0  \/  0    | |
  /|                 | |
 / |        <        |\ \
| /|                 | | |
| |     \_______/   |  | |
| |                 | / /
/||                 /|||
   ----------------|
        | |    | |
        ***    ***
       /___\  /___\
"),
  ("cow", r"
\
 \
   ^__^
   (oo)\_______
   (__)\       )\/\
       ||----w |
       ||     ||
"),
  ("daemon", "
        \\
         \\
          \\
           \\
            /- _  `-/  '
           (/\\/ \\ \\   /\\
           / /   | `    \\
           O O   ) /    |
           `-^--'`<     '
          (_.)  _  )   /
           `.___/`    /
             `-----' /
<----.     __ / __   \\
<----|====O)))==) \\) /====
<----'    `--' `.__,' \\
             |        |
              \\       /
        ______( (_  / \\______
      ,'  ,-----'   |        \\
      `--\x7b__________)        \\/
"),
  ("dragon", "
  \\
   \\
    \\
     \\
                           / \\\\  //\\\\
            |\\\\___/|      /   \\\\//  \\\\\\\\
            /0  0  \\\\__  /    //  | \\\\ \\\\
           /     /  \\\\/_/    //   |  \\\\  \\\\
           \\@_^_\\@'/   \\\\/_   //    |   \\\\   \\\\
" ++ dragonBody ++ "
"),
  ("fox", "
 \\
  \\
   \\
    |\\_/|,,_____,~~`
    (.\".)~~     )`~\x7d\x7d
     \\o/\\ /---~\\\\ ~\x7d\x7d
       _//    _// ~\x7d
"),
  ("ghostbusters", r#"
        \
         \
          \
           \
                       __---__
                    _-       /--______
               __--( /     \ )XXXXXXXXXXX\v.
             .-XXX(   O   O  )XXXXXXXXXXXXXXX-
            /XXX(       U     )        XXXXXXX\
          /XXXXX(              )--_  XXXXXXXXXXX\
         /XXXXX/ (      O     )   XXXXXX   \XXXXX\
         XXXXX/   /            XXXXXX   \__ \XXXXX
         XXXXXX__/          XXXXXX         \__---->
 ---___  XXX__/          XXXXXX      \__         /
   \-  --__/   ___/\  XXXXXX            /  ___--/=
    \-\    ___/    XXXXXX              '--- XXXXXX
       \-\/XXX\ XXXXXX                      /XXXXX
         \XXXXXXXXX   \                    /XXXXX/
          \XXXXXX      >                 _/XXXXX/
            \XXXXX--__/              __-- XXXX/
             -XXXXXXXX---------------  XXXXXX-
                \XXXXXXXXXXXXXXXXXXXXXXXXXX/
                  ""VXXXXXXXXXXXXXXXXXXV""
"#),
  ("kitty", r#"
   \
    \
     \
      \

       ("`-'  '-/") .___..--' ' "`-._
        ` *_ *  )    `-.   (      ) .`-.__. `)
         (_Y_.) ' ._   )   `._` ;  `` -. .-'
      _.. `--'_..-_/   /--' _ .' ,4
     ( i l ),-''  ( l i),'  ( ( ! .-'
"#),
  ("meow", r#"
\
 \
  \
   \
                  _ ___.--'''`--''//-,-_--_.
      \\`"' ` || \\\\ \\ \\\\/ / // / ,-\\\\`,_
     /'`  \\ \\ || Y  | \\|/ / // / - |__ `-,
    /\@"\\  ` \\ `\\ |  | ||/ // | \\/  \\  `-._`-,_.,
   /  _.-. `.-\\,___/\\ _/|_/_\\_\\/|_/ |     `-._._)
   `-'``/  /  |  // \\__/\\__  /  \\__/ \\
        `-'  /-\\/  | -|   \\__ \\   |-' |
          __/\\ / _/ \\/ __,-'   ) ,' _|'
         (((__/(((_.' ((___..-'((__,'
"#),
  ("miki", r"
\
 \                  &************************&
  \             &******************************&
   \          &**********************************&
            &**************************************&
          &*****************************************&
         &*******************************************&
        &*********************************************&
       &***********************************************&
      &************************************************&
      &***#########********#########*******************&
      &*##       ##########          ##################&
      &*##   O   ##@**####   O       ##***************&
      &***#########@*******#########*****************&
      &***********@*********************************&
      &**********@*********************************&
      &*********@*********************************&
      &********@@*********************************&
       &*******@@@@@@****************************&
        &**************************************&
          &**************************************&
           &******@@@@@@@@@@@@*********************&
             &*************************************&
               &************************************&
                     &*******************************&
                       &*****************************&
"),
  ("milk", r"
\
 \
  \
   \
       ____________
       |__________|
      /           /\
     /           /  \
    /___________/___/|
    |          |     |
    |  ==\ /== |     |
    |   O   O  | \ \ |
    |     <    |  \ \|
   /|          |   \ \
  / |  \_____/ |   / /
 / /|          |  / /|
/||\|          | /||\/
    -------------|
        | |    | |
       <__/    \__>
"),
  ("octopus", r"
     \
      \
       \
                        . . .
                      .   ^   .
                     .  ^ ^ ^  .
                     .  ^ ^ ^  .
                      .   ^    .
                        . . .
          _ _ _ _ _ _ _|     |_ _ _ _ _ _
         /  _ _ _ _ _ _| o|o |_ _ _ _ _ _ \
        / /  _ _ _  _ _|  |  |_ _ _ _    \ \
       / /  /  _ _ _ / /| |\ \ _ _ _  \   \ \
      / /  /  /     / / | | \ \     \  \   \ \
     / /  /  /     / /  | |  \ \     \  \   \ \
    /_/  /  /     / /   | |   \ \     \  \   \_\
     |  /__/     /_/    |_|    \_\     \__\   |
          |      /       |       \       |
"),
  ("pig", r#"
\
 \
  \
   \
             ,.
            (_|,.
            ,' /, )_______   _
        __j o``-'        `.'-)'
        (")                 \'
        `-j                |
          `-._(           /
             |_\  |--^.  /
            /_]'|_| /_)_/
                /_]'  /_]'
"#),
  ("stegosaurus", "
      \\
       \\
        \\
         \\
                            .       .
                           / `.   .' \\
                   .---.  <    > <    >  .---.
                   |    \\  \\ - ~ ~ - /  /    |
       _____        ~-..-~             ~-..-~
      |     |   \\~~~\\.'                    `./~~~/
     ---------   \\__/                        \\__/
    .'  O    \\     /               /       \\  \"
   (_____,    `._.'               |         \x7d  \\/~~~/
    `----.          /       \x7d     |        /    \\__/
          `-.      |       /      |       /      `. ,~~|
              ~-.__|      /_ - ~ ^|      /- _      `..-'   f:  f:
                   |     /        |     /     ~-.     `-. _|| _||_
                   |_____|        |_____|         ~ - . _ _ _ _ __>

"),
  ("stimpy", r"
 \
  \
   \
    \
        .    _  .
       |\_|/__/|
       / / \/ \  \
      /__|O||O|__ \
     |/_ \_/\_/ _\ |
     | | (____) | ||
     \/\___/\__/  //
     (_/         ||
      |          ||
      |          ||\
       \        //_/
        \______//
       __ || __||
      (____(____)
"),
  ("trex", r#"
       \
        \
         \
          \
             .-=-==--==--.
       ..-=="  ,'o`)      `.
     ,'         `"'         \
    :  (                     `.__...._
    |                  )    /         `-=-.
    :       ,vv.-._   /    /               `---==-._
     \/\/\/VV ^ d88`;'    /                         `.
         ``  ^/d88P!'    /             ,              `._
            ^/    !'   ,.      ,      /                  "-,,__,,--'""""-.
           ^/    !'  ,'  \ . .(      (         _           )  ) ) ) ))_,-.\
          ^(__ ,!',"'   ;:+.:%:a.     \:.. . ,'          )  )  ) ) ,"'    '
          ',,,'','     /o:::":%:%a.    \:.:.:         .    )  ) _,'
           """'       ;':::'' `+%%%a._  \%:%|         ;.). _,-""
                  ,-='_.-'      ``:%::)  )%:|        /:._,"
                 (/(/"           ," ,'_,'%%%:       (_,'
                                (  (//(`.___;        \
                                 \     \    `         `
                                  `.    `.   `.        :
                                    \. . .\    : . . . :
                                     \. . .:    `.. . .:
                                      `..:.:\     \:...\
                                       ;:.:.;      ::...:
                                       ):%::       :::::;
                                   __,::%:(        :::::
                                ,;:%%%%%%%:        ;:%::
                                  ;,--""-.`\  ,=--':%:%:\
                                 /"       "| /-".:%%%%%%%\
                                                 ;,-"'`)%%)
                                                /"      "|
"#),
  ("turkey", "
        \\
         \\
          \\
           \\
                                             ,+*^^*+___+++_
                                       ,*^^^^              )
                                    _+*                     ^**+_
                                  +^       _ _++*+_+++_,         )
" ++ turkeyBody ++ "
                     ^^^ ^^ ^^^ ^
"),
  ("turtle", r"
  \
   \
    \
     \
                                ___-------___
                            _-~~             ~~-_
                         _-~                    /~-_
       /^\__/^\         /~  \                   /    \
     /|  O|| O|        /      \_______________/        \
    | |___||__|      /       /                \          \
    |          \    /      /                    \          \
    |   (_______) /______/                        \_________ \
    |         / /         \                      /            \
     \         \^\\         \                  /               \     /
       \         ||           \______________/      _-_       //\__//
         \       ||------_-~~-_ ------------- \ --/~   ~\    || __/
           ~-----||====/~     |==================|       |/~~~~~
            (_(__/  ./     /                    \_\      \.
                   (_(___/                         \_____)_)
"),
  ("tux", r"
     \
      \
       \
        .--.
       |o_o |
       |:_/ |
      //   \ \
     (|     | )
    /'\_   _/`\
    \___)=(___/
")]

end TaskShell.Cow
