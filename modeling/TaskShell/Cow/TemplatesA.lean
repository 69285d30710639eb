import TaskShell.Cow.Characters

/-!
# Cow templates, first part

Template files by name.
-/

namespace TaskShell.Cow

def templatesA : List (String × String) := [
  ("alien", r#"$the_cow = <<'EOC';
   $thoughts
    $thoughts     .-""""-.
     $thoughts    / $eyes  \
      $thoughts   |      |
       $thoughts   \ -- /
        $thoughts   '--'
EOC

$eyes = $eyes || "oo";
$tongue = $tongue || " ";"#),
  ("beavis.zen", r"##
## Beavis, with Zen philosophy removed.
##
$the_cow = <<EOC;
   $thoughts         __------~~-,
    $thoughts      ,'            ,
" ++ beavisBody ++ r"
EOC
"),
  ("blowfish", r"##
## Blowfish
##
$the_cow = <<EOC;
   $thoughts
    $thoughts
               |    .
           .   |L  /|
       _ . |\\ _| \\--+._/| .
      / ||\\| Y J  )   / |/| ./
     J  |)'( |        ` F`.'/
   -<|  F         __     .-<
     | /       .-'. `.  /-. L___
     J \\      <    \\  | | O\\|.-'
   _J \\  .-    \\/ O | | \\  |F
  '-F  -<_.     \\   .-'  `-' L__
 __J  _   _.     >-'  )._.   |-'
 `-|.'   /_.           \\_|   F
   /.-   .                _.<
  /'    /.'             .'  `\\
   /L  /'   |/      _.-'-\\
  /'J       ___.---'\\|
    |\\  .--' V  | `. `
    |/`. `-.     `._)
       / .-.\\
 VK    \\ (  `\\
        `.\\

EOC
"),
  ("bong", r"##
## A cow with a bong, from lars@csua.berkeley.edu
##
$the_cow = <<EOC;
         $thoughts
          $thoughts
            ^__^ 
    _______/($eyes)
/\\/(       /(__)
   | W----|| |~|
   ||     || |~|  ~~
             |~|  ~
             |_| o
             |#|/
            _+#+_
EOC
"),
  ("bud-frogs", r"##
## The Budweiser frogs
##
$the_cow = <<EOC;
     $thoughts
      $thoughts
          oO)-.                       .-(Oo
         /__  _\\                     /_  __\\
         \\  \\(  |     ()~()         |  )/  /
          \\__|\\ |    (-___-)        | /|__/
          '  '--'    ==`-'==        '--'  '
EOC
"),
  ("bunny", r"##
## A cute little wabbit
##
$the_cow = <<EOC;
  $thoughts
   $thoughts   \\
        \\ /\\
        ( )
      .( o ).
EOC
"),
  ("cat", r#"# kitty.cow – eine Katze für cowsay

$the_cow = <<'EOC';
   $thoughts
    $thoughts      /\_/\  
     $thoughts    ( $eyes ) 
      $thoughts   =(   )=  
       $thoughts    )   (   //
        $thoughts  (__ __)//
EOC

# Standard-Augen und Zunge
$eyes = $eyes || "o.o";
$tongue = $tongue || " ";"#),
  ("cheese", r"##
## The cheese from milk & cheese
##
$the_cow = <<EOC;
   $thoughts
    $thoughts
      _____   _________
     /     \\_/         |
    |                 ||
    |                 ||
   |    ###\\  /###   | |
   |     0  \\/  0    | |
  /|                 | |
 / |        <        |\\ \\
| /|                 | | |
| |     \\_______/   |  | |
| |                 | / /
/||                 /|||
   ----------------|
        | |    | |
        ***    ***
       /___\\  /___\\
EOC
"),
  ("cower", r"##
## A cowering cow
##
$the_cow = <<EOC;
     $thoughts
      $thoughts
        ,__, |    | 
        (oo)\\|    |___
        (__)\\|    |   )\\_
             |    |_w |  \\
             |    |  ||   *

             Cower....
EOC
"),
  ("daemon", "##
## 4.4 >> 5.4
##
$the_cow = <<EOC;
   $thoughts         ,        ,
    $thoughts       /(        )`
     $thoughts      \\\\ \\\\___   / |
            /- _  `-/  '
           (/\\\\/ \\\\ \\\\   /\\\\
           / /   | `    \\\\
           O O   ) /    |
           `-^--'`<     '
          (_.)  _  )   /
           `.___/`    /
             `-----' /
<----.     __ / __   \\\\
<----|====O)))==) \\\\) /====
<----'    `--' `.__,' \\\\
             |        |
              \\\\       /
        ______( (_  / \\\\______
      ,'  ,-----'   |        \\\\
      `--\x7b__________)        \\\\/
EOC
"),
  ("default", r#"$the_cow = <<"EOC";
        $thoughts   ^__^
         $thoughts  ($eyes)\\_______
            (__)\\       )\\/\\
             $tongue ||----w |
                ||     ||
EOC
"#),
  ("dog", r#"$the_cow = <<'EOC';
   $thoughts
    $thoughts   /^ ^\ 
     $thoughts  / $eyes \
      $thoughts V\   /V
       $thoughts  / - \
        $thoughts (     )
         $thoughts || || 
EOC

$eyes = $eyes || "0.0";
$tongue = $tongue || "U";"#),
  ("dragon-and-cow", "##
## A dragon smiting a cow, possible credit to kube@csua.berkeley.edu
##
$the_cow = <<EOC;
                       $thoughts                    ^    /^
                        $thoughts                  / \\\\  // \\\\
                         $thoughts   |\\\\___/|      /   \\\\//  .\\\\
                          $thoughts  /O  O  \\\\__  /    //  | \\\\ \\\\           *----*
                            /     /  \\\\/_/    //   |  \\\\  \\\\          \\\\   |
                            \\@___\\@`    \\\\/_   //    |   \\\\   \\\\         \\\\/\\\\ \\\\
                           0/0/|       \\\\/_ //     |    \\\\    \\\\         \\\\  \\\\
                       0/0/0/0/|        \\\\///      |     \\\\     \\\\       |  |
                    0/0/0/0/0/_|_ /   (  //       |      \\\\     _\\\\     |  /
                 0/0/0/0/0/0/`/,_ _ _/  ) ; -.    |    _ _\\\\.-~       /   /
                             ,-\x7d        _      *-.|.-~-.           .~    ~
            \\\\     \\\\__/        `/\\\\      /                 ~-. _ .-~      /
             \\\\____($eyes)           *.   \x7d            \x7b                   /
             (    (--)          .----~-.\\\\        \\\\-`                 .~
             //__\\\\\\\\  \\\\__ Ack!   ///.----..<        \\\\             _ -~
            //    \\\\\\\\               ///-._ _ _ _ _ _ _\x7b^ - - - - ~
EOC
"),
  ("dragon", "##
## The Whitespace Dragon
##
$the_cow = <<EOC;
      $thoughts                    / \\\\  //\\\\
       $thoughts    |\\\\___/|      /   \\\\//  \\\\\\\\
            /0  0  \\\\__  /    //  | \\\\ \\\\    
           /     /  \\\\/_/    //   |  \\\\  \\\\  
           \\@_^_\\@'/   \\\\/_   //    |   \\\\   \\\\ 
" ++ dragonBody ++ "
EOC
"),
  ("elephant-in-snake", r"##
## Do we need to explain this?
##
$the_cow = <<EOC;
   $thoughts
    $thoughts              ....       
           ........    .      
          .            .      
         .             .      
.........              .......
..............................

Elephant inside ASCII snake
EOC
"),
  ("elephant", r"##
## An elephant out and about
##
$the_cow = <<EOC;
 $thoughts     /\\  ___  /\\
  $thoughts   // \\/   \\/ \\\\
     ((    O O    ))
      \\\\ /     \\ //
       \\/  | |  \\/ 
        |  | |  |  
        |  | |  |  
        |   o   |  
        | |   | |  
        |m|   |m|  
EOC
"),
  ("eyes", r#"##
## Evil-looking eyes
##
$the_cow = <<EOC;
    $thoughts
     $thoughts
                                   .::!!!!!!!:.
  .!!!!!:.                        .:!!!!!!!!!!!!
  ~~~~!!!!!!.                 .:!!!!!!!!!UWWW\$\$\$ 
      :\$\$NWX!!:           .:!!!!!!XUWW\$\$\$\$\$\$\$\$\$P 
      \$\$\$\$\$##WX!:      .<!!!!UW\$\$\$\$"  \$\$\$\$\$\$\$\$# 
      \$\$\$\$\$  \$\$\$UX   :!!UW\$\$\$\$\$\$\$\$\$   4\$\$\$\$\$* 
      ^\$\$\$B  \$\$\$\$\\     \$\$\$\$\$\$\$\$\$\$\$\$   d\$\$R" 
        "*\$bd\$\$\$\$      '*\$\$\$\$\$\$\$\$\$\$\$o+#" 
             """"          """"""" 
EOC
"#),
  ("fish", r#"$the_cow = <<'EOC';
   $thoughts
    $thoughts   ><(((($eyes'> 
EOC

$eyes = $eyes || "°°";
$tongue = $tongue || " ";"#),
  ("flaming-sheep", "##
## The flaming sheep, contributed by Geordan Rosario (geordan@csua.berkeley.edu)
##
$the_cow = <<EOC;
  $thoughts            .    .     .   
   $thoughts      .  . .     `  ,     
    $thoughts    .; .  : .' :  :  : . 
     $thoughts   i..`: i` i.i.,i  i . 
      $thoughts   `,--.|i |i|ii|ii|i: 
           U$\x7beyes\x7dU\\\\.'\\@\\@\\@\\@\\@\\@`.||' 
           \\\\__/(\\@\\@\\@\\@\\@\\@\\@\\@\\@\\@)'  
                (\\@\\@\\@\\@\\@\\@\\@\\@)    
                `YY~~~~YY'    
                 ||    ||     
EOC
"),
  ("gentleman", r#"$the_cow = <<'EOC';
   $thoughts
    $thoughts   ( $eyes ) 
     $thoughts   /---\ 
      $thoughts  |   | 
       $thoughts  \___/
        $thoughts   | |
         $thoughts   |_|
EOC

$eyes = $eyes || "o_o";
$tongue = $tongue || " ";"#),
  ("ghostbusters", r#"##
## Ghostbusters!
##
$the_cow = <<EOC;
          $thoughts
           $thoughts
            $thoughts          __---__
                    _-       /--______
               __--( /     \\ )XXXXXXXXXXX\\v.
             .-XXX(   O   O  )XXXXXXXXXXXXXXX-
            /XXX(       U     )        XXXXXXX\\
          /XXXXX(              )--_  XXXXXXXXXXX\\
         /XXXXX/ (      O     )   XXXXXX   \\XXXXX\\
         XXXXX/   /            XXXXXX   \\__ \\XXXXX
         XXXXXX__/          XXXXXX         \\__---->
 ---___  XXX__/          XXXXXX      \\__         /
   \\-  --__/   ___/\\  XXXXXX            /  ___--/=
    \\-\\    ___/    XXXXXX              '--- XXXXXX
       \\-\\/XXX\\ XXXXXX                      /XXXXX
         \\XXXXXXXXX   \\                    /XXXXX/
          \\XXXXXX      >                 _/XXXXX/
            \\XXXXX--__/              __-- XXXX/
             -XXXXXXXX---------------  XXXXXX-
                \\XXXXXXXXXXXXXXXXXXXXXXXXXX/
                  ""VXXXXXXXXXXXXXXXXXXV""
EOC
"#),
  ("head-in", r"##
## Go stick yer head in a cow.
##
$the_cow = <<EOC;
    $thoughts
     $thoughts
    ^__^         /
    ($eyes)\\_______/  _________
    (__)\\       )=(  ____|_ \\_____
   $tongue   ||----w |  \\ \\     \\_____ |
        ||     ||   ||           ||
EOC
"),
  ("hellokitty", r"##
## Hello Kitty
##
$the_cow = <<EOC;
  $thoughts
   $thoughts
      /\\_)o<
     |      \\
     | O . O|
      \\_____/
EOC
"),
  ("kiss", r"##
## A lovers' empbrace
##
$the_cow = <<EOC;
     $thoughts
      $thoughts
             ,;;;;;;;,
            ;;;;;;;;;;;,
           ;;;;;'_____;'
           ;;;(/))))|((\\
           _;;((((((|))))
          / |_\\\\\\\\\\\\\\\\\\\\\\\\
     .--~(  \\ ~))))))))))))
    /     \\  `\\-(((((((((((\\\\
    |    | `\\   ) |\\       /|)
     |    |  `. _/  \\_____/ |
      |    , `\\~            /
       |    \\  \\           /
      | `.   `\\|          /
      |   ~-   `\\        /
       \\____~._/~ -_,   (\\
        |-----|\\   \\    ';;
       |      | :;;;'     \\
      |  /    |            |
      |       |            |
EOC
"),
  ("kitty", r#"##
## A kitten of sorts, I think
##
$the_cow = <<EOC;
     $thoughts
      $thoughts
       ("`-'  '-/") .___..--' ' "`-._
         ` *_ *  )    `-.   (      ) .`-.__. `)
         (_Y_.) ' ._   )   `._` ;  `` -. .-'
      _.. `--'_..-_/   /--' _ .' ,4
   ( i l ),-''  ( l i),'  ( ( ! .-'    
EOC
"#),
  ("koala", "##
## From the canonical koala collection
##
$the_cow = <<EOC;
  $thoughts
   $thoughts
       ___  
     \x7b~._.~\x7d
      ( Y )
     ()~*~()   
     (_)-(_)   
EOC
")]

end TaskShell.Cow
